import Vexil.Proofs.ConfigFiles
import Vexil.Sdk.Cache
import Vexil.Sdk.SidecarClients

/-!
# What comes through the sidecar's HTTP API

For a name that an object can have, the path that an SDK asks for is the path
that the router takes apart, the handler looks up that name, and the document it
writes is one that every reader gives back. So all four SDKs have the flag that
is in the store, in every field, whatever characters are in its value. The one
exception is a flag called `stream`: its path is the event stream's, and no SDK
ever gets it by name, though all of them list it.
-/

namespace Vexil.Sdk

open Vexil.Lib Vexil.Sidecar

/-! ## Paths -/

/-- A piece of a path that stands for itself. -/
def Literal (text : String) : Prop :=
  CleanSegment text.toList ∧ '%' ∉ text.toList

theorem ObjectName.literal {name : String} (h : ObjectName name) :
    Literal name := by
  obtain ⟨hchars, hhead, _, hne⟩ := h
  have hnot : ∀ c, ¬ (c.isLower ∨ c.isDigit ∨ c = '-' ∨ c = '.') →
      c ∉ name.toList := fun c hc hmem => hc (hchars c hmem)
  have hdot : name.toList.head? ≠ some '.' := by
    intro hdot
    exact absurd (hhead '.' hdot) (by decide)
  refine ⟨⟨?_, ?_, ?_, hnot '/' (by decide)⟩, hnot '%' (by decide)⟩
  · exact fun h => hne (String.toList_eq_nil_iff.mp h)
  · intro h
    rw [h] at hdot
    exact hdot rfl
  · intro h
    rw [h] at hdot
    exact hdot rfl

theorem literal_flags : Literal "flags" :=
  ⟨⟨by decide, by decide, by decide, by decide⟩, by decide⟩

theorem literal_value : Literal "value" :=
  ⟨⟨by decide, by decide, by decide, by decide⟩, by decide⟩

section
variable {order : List ResolvedFlag} {s : FlagStore}

/-- What a path of literal pieces is answered. -/
theorem httpGet_literal {texts : List String} (hne : texts ≠ [])
    (hliteral : ∀ text ∈ texts, Literal text) {path : String}
    (hpath : path.toList = join (texts.map String.toList))
    (hpercent : '%' ∉ path.toList) {h : Handler}
    {values : List (String × String)}
    (hfind : findRoute (routes order) "GET" texts = some (h, values)) :
    httpGet order s path = some (h s (pathValue values)) := by
  have hclean : ∀ seg ∈ texts.map String.toList, CleanSegment seg := by
    intro seg hseg
    obtain ⟨text, htext, rfl⟩ := List.mem_map.mp hseg
    exact (hliteral text htext).1
  have hsegs : (texts.map String.toList).map pathUnescape = texts := by
    have hsame : ∀ text ∈ texts,
        (pathUnescape ∘ String.toList) text = text := by
      intro text htext
      show pathUnescape text.toList = text
      rw [pathUnescape_plain (hliteral text htext).2, String.ofList_toList]
    rw [List.map_map, List.map_congr_left hsame, List.map_id']
  rw [← hsegs] at hfind
  unfold httpGet
  split
  · next hnone =>
      rw [unescape_plain hpercent] at hnone
      cases hnone
  · rw [respond, serveMux_clean (by simpa using hne) hclean hpath hfind]

theorem httpGet_flags :
    httpGet order s flagsPath = some (handleFlags order s (pathValue [])) := by
  have hliteral : ∀ text ∈ ["flags"], Literal text := by
    simpa using literal_flags
  exact httpGet_literal (List.cons_ne_nil _ _) hliteral rfl (by decide) rfl

theorem ne_slash {name : String} (h : ObjectName name) : name ≠ "/" := by
  rintro rfl
  exact h.literal.1.slash (by decide)

/-- The path of a flag leads to its handler, unless it is the path of the
stream. -/
theorem httpGet_flag {name : String} (h : ObjectName name) :
    httpGet order s (flagPath name) = some (
      if name = "stream" then handleStream s (pathValue [])
      else handleName s (pathValue [("name", name)])) := by
  have hliteral : ∀ text ∈ ["flags", name], Literal text := by
    simpa using ⟨literal_flags, h.literal⟩
  have hpath : (flagPath name).toList =
      join (["flags", name].map String.toList) := by
    simp [flagPath, join, List.intercalate_cons_cons]
  have hpercent : '%' ∉ (flagPath name).toList := by
    simpa [flagPath] using h.literal.2
  split
  · next hstream =>
      subst hstream
      exact httpGet_literal (List.cons_ne_nil _ _) hliteral hpath hpercent rfl
  · next hstream =>
      refine httpGet_literal (List.cons_ne_nil _ _) hliteral hpath hpercent ?_
      simp [findRoute, routes, Route.matches?, matchSegments, ne_slash h,
        Ne.symm hstream]

/-- The path of a value leads to its handler, whatever the name. -/
theorem httpGet_value {name : String} (h : ObjectName name) :
    httpGet order s (flagPath name ++ "/value") =
      some (handleValue s (pathValue [("name", name)])) := by
  have hliteral : ∀ text ∈ ["flags", name, "value"], Literal text := by
    simpa using ⟨literal_flags, h.literal, literal_value⟩
  have hpath : (flagPath name ++ "/value").toList =
      join (["flags", name, "value"].map String.toList) := by
    simp [flagPath, join, List.intercalate_cons_cons]
  have hpercent : '%' ∉ (flagPath name ++ "/value").toList := by
    simpa [flagPath] using h.literal.2
  refine httpGet_literal (List.cons_ne_nil _ _) hliteral hpath hpercent ?_
  simp [findRoute, routes, Route.matches?, matchSegments, ne_slash h]

end

/-! ## Documents -/

theorem isPaired_ofString (s : String) :
    Json.isPaired (.ofString s) = true := by
  have hpair : ∀ cs : List Char, Json.pairUp (cs.map .scalar) =
      cs.map .scalar := by
    intro cs
    induction cs with
    | nil => rfl
    | cons c cs ih =>
        cases cs with
        | nil => rfl
        | cons d cs =>
            rw [List.map_cons, List.map_cons, Json.pairUp]
            · rw [← List.map_cons, ih]
            · simp
  rw [Json.isPaired, JsonText.ofString, hpair]
  simp

theorem isWritable_json (f : ResolvedFlag) :
    Json.isWritable f.json = true := by
  unfold ResolvedFlag.json
  split
  · simp [Json.isWritable, Json.membersWritable, isPaired_ofString]
  · simp [Json.isWritable, Json.membersWritable, isPaired_ofString]

theorem areWritable_json (fs : List ResolvedFlag) :
    Json.areWritable (fs.map ResolvedFlag.json) = true := by
  induction fs with
  | nil => rfl
  | cons f fs ih =>
      rw [List.map_cons, Json.areWritable, isWritable_json, ih, Bool.and_self]

/-- Both ways to read a body give back what was encoded. -/
theorem read_encode {v : JsonValue} (h : Json.isWritable v = true) :
    Json.readFirst (encodeBody v) = some (v, ['\n']) ∧
      Json.read (encodeBody v) = some v := by
  have hblank : ∀ c ∈ ['\n'], Json.isBlank c = true := by simp [Json.isBlank]
  refine ⟨Json.readFirst_write h ?_, Json.read_write h hblank⟩
  intro c hc
  obtain rfl := Option.some.inj hc
  decide

/-! ## The document of a flag, read by each SDK -/

section
variable (f : ResolvedFlag)

/-- The keys of the document, as Go compares them. -/
theorem foldName_key : ∀ k ∈ ["name", "type", "value", "disabled",
    "description"], Go.foldName k = k := by decide

theorem go_decodeDoc : Go.decodeDoc f.json = .ok (decodeFlag f) := by
  have hkeys := foldName_key
  simp only [List.forall_mem_cons] at hkeys
  unfold ResolvedFlag.json
  split
  · simp [Go.decodeDoc, Go.setField, goText_ofString, hkeys, Go.stringField,
      Go.boolField, decodeFlag, bind, Except.bind, pure, Except.pure]
  · simp [Go.decodeDoc, Go.setField, goText_ofString, hkeys, Go.stringField,
      Go.boolField, decodeFlag, bind, Except.bind, pure, Except.pure]

theorem stringOf_ofString (t : String) :
    Dotnet.stringOf (.ofString t) = some t := stringOf_eq_some_iff.mpr rfl

theorem typedFlag_json : typedFlag (.string (.ofString f.name))
    (.string (.ofString f.type)) (.string (.ofString f.value))
    (.bool f.disabled) = some (decodeFlag f) := by
  simp [typedFlag, textOf, stringOf_ofString, Dotnet.boolProperty, decodeFlag]

/-- The document is an object with the members of a flag. -/
theorem json_members : ∃ members, f.json = .object members ∧
    member members (.ofString "name") = some (.string (.ofString f.name)) ∧
    member members (.ofString "type") = some (.string (.ofString f.type)) ∧
    member members (.ofString "value") = some (.string (.ofString f.value)) ∧
    member members (.ofString "disabled") = some (.bool f.disabled) := by
  refine ⟨_, rfl, ?_, ?_, ?_, ?_⟩
  all_goals
    split
    · simp [member, ofString_eq_iff]
    · simp [member, ofString_eq_iff]

theorem node_asFlag : Node.asFlag f.json = some (decodeFlag f) := by
  obtain ⟨members, hjson, hname, htype, hvalue, hdisabled⟩ := json_members f
  rw [hjson, Node.asFlag, hname, htype, hvalue, hdisabled]
  exact typedFlag_json f

/-- What Python makes of the document. -/
theorem python_listedFlag : ∃ g, Python.listedFlag f.json = some g ∧
    g.asFlag = some (decodeFlag f) := by
  obtain ⟨members, hjson, hname, htype, hvalue, hdisabled⟩ := json_members f
  refine ⟨⟨_, _, _, _⟩, ?_, typedFlag_json f⟩
  rw [hjson, Python.listedFlag, Python.flagObject, hname, htype, hvalue,
    hdisabled]
  rfl

/-- The keys of the document in lower case. -/
theorem toLower_key : ∀ k ∈ ["name", "type", "value", "disabled",
    "description"], toLower k = k := by decide

theorem dotnet_deserialize : ∃ g, Dotnet.deserialize f.json = some (some g) ∧
    g.asFlag = some (decodeFlag f) := by
  have hkeys := toLower_key
  simp only [List.forall_mem_cons] at hkeys
  refine ⟨⟨some f.name, some f.type, some f.value, f.disabled⟩, ?_, rfl⟩
  unfold ResolvedFlag.json
  split
  · simp [Dotnet.deserialize, Dotnet.setProperty, stringOf_ofString, hkeys,
      Dotnet.stringProperty, Dotnet.boolProperty]
  · simp [Dotnet.deserialize, Dotnet.setProperty, stringOf_ofString, hkeys,
      Dotnet.stringProperty, Dotnet.boolProperty]

end

/-! ## Responses, read by each SDK -/

section
variable {order : List ResolvedFlag} {s : FlagStore} {name : String}

/-- The response with a flag's document. -/
def flagResponse (f : ResolvedFlag) : Response where
  contentType := "application/json"
  body := .text (encodeBody f.json)

theorem handleName_of_get {f : ResolvedFlag} (hname : name ≠ "stream")
    (hget : s.get name = some f) :
    handleName s (pathValue [("name", name)]) = flagResponse f := by
  have hvalue : pathValue [("name", name)] "name" = name := by simp [pathValue]
  unfold handleName
  dsimp only
  rw [hvalue, if_neg hname, hget]
  rfl

theorem handleName_of_none (hname : name ≠ "stream")
    (hget : s.get name = none) :
    (handleName s (pathValue [("name", name)])).status = 404 := by
  have hvalue : pathValue [("name", name)] "name" = name := by simp [pathValue]
  unfold handleName
  dsimp only
  rw [hvalue, if_neg hname, hget]
  rfl

theorem Python.getSidecar_object {resp : Response} {cs : List Char}
    {members : List (JsonText × JsonValue)} (hok : resp.status = 200)
    (hbody : resp.body = .text cs)
    (hread : Json.read cs = some (.object members)) :
    Python.getSidecar (some resp) = .returns (Python.flagObject members) := by
  simp only [Python.getSidecar, hok, hbody, hread, if_true]

theorem Python.allSidecar_array {resp : Response} {cs : List Char}
    {elems : List JsonValue} (hok : resp.status = 200)
    (hbody : resp.body = .text cs)
    (hread : Json.read cs = some (.array elems)) :
    Python.allSidecar (some resp) =
      (elems.mapM Python.listedFlag).elim .lost .returns := by
  simp only [Python.allSidecar, hok, hbody, hread, if_true]

/-- From the document of a flag every SDK has the flag. -/
theorem lookups_flagResponse (name : String) (f : ResolvedFlag) :
    Go.getFlag name (some (flagResponse f)) = .ok (decodeFlag f) ∧
    Node.getSidecar (some (flagResponse f)) = .returns (some f.json) ∧
    (∃ g, Python.getSidecar (some (flagResponse f)) = .returns (some g) ∧
      g.asFlag = some (decodeFlag f)) ∧
    ∃ g, Dotnet.sidecarGetFlag (some (flagResponse f)) = some g ∧
      g.asFlag = some (decodeFlag f) := by
  obtain ⟨hfirst, hread⟩ := read_encode (isWritable_json f)
  refine ⟨?_, ?_, ?_, ?_⟩
  · show Go.decodeBody Go.decodeDoc (.text (encodeBody f.json)) = _
    rw [Go.decodeBody, hfirst]
    exact go_decodeDoc f
  · show Reply.returns (Json.read (encodeBody f.json)) = _
    rw [hread]
  · obtain ⟨g, hg, hflag⟩ := python_listedFlag f
    refine ⟨g, ?_, hflag⟩
    obtain ⟨members, hjson, _⟩ := json_members f
    have hbody : Json.read (encodeBody f.json) = some (.object members) := by
      rw [hread, hjson]
    rw [hjson] at hg
    have hget : Python.getSidecar (some (flagResponse f)) =
        .returns (Python.flagObject members) :=
      Python.getSidecar_object rfl rfl hbody
    rw [hget]
    exact congrArg Reply.returns hg
  · obtain ⟨g, hg, hflag⟩ := dotnet_deserialize f
    refine ⟨g, ?_, hflag⟩
    show ((Json.read (encodeBody f.json)).bind Dotnet.deserialize).join = _
    rw [hread, Option.bind_some, hg]
    rfl

/-- From a response without success none has one. -/
theorem lookups_notFound (name : String) {resp : Response}
    (h : resp.status = 404) :
    Go.getFlag name (some resp) = .error ("flag " ++ name ++ " not found") ∧
    Node.getSidecar (some resp) = .returns none ∧
    Python.getSidecar (some resp) = .returns none ∧
    Dotnet.sidecarGetFlag (some resp) = none := by
  have hok : Response.isOk resp = false := by simp [Response.isOk, h]
  refine ⟨?_, ?_, ?_, ?_⟩
  · simp [Go.getFlag, h]
  · simp [Node.getSidecar, hok]
  · simp [Python.getSidecar, h]
  · simp [Dotnet.sidecarGetFlag, Dotnet.readBody, hok]

/-- Every SDK gets from the sidecar what its store has under the name. -/
theorem lookups_eq (h : ObjectName name) :
    ∀ r ∈ sidecarLookups order s name, r = servedFlag s name := by
  unfold sidecarLookups servedFlag
  dsimp only
  rw [httpGet_flag h]
  by_cases hstream : name = "stream"
  · rw [if_pos hstream, if_pos hstream]
    simp [handleStream, Go.getFlag, Go.decodeBody, Except.toOption,
      Node.getSidecar, Python.getSidecar, Dotnet.sidecarGetFlag,
      Dotnet.readBody, Response.isOk, Reply.toOption]
  · rw [if_neg hstream, if_neg hstream]
    cases hget : s.get name with
    | none =>
        obtain ⟨hgo, hnode, hpython, hdotnet⟩ :=
          lookups_notFound name (handleName_of_none hstream hget)
        rw [hgo, hnode, hpython, hdotnet]
        simp [Except.toOption, Reply.toOption]
    | some f =>
        obtain ⟨hgo, hnode, ⟨g, hpython, hg⟩, g', hdotnet, hg'⟩ :=
          lookups_flagResponse name f
        rw [handleName_of_get hstream hget, hgo, hnode, hpython, hdotnet]
        simp [Except.toOption, Reply.toOption, node_asFlag, hg, hg']

/-- The Go SDK behaves over HTTP as it does against the store itself. -/
theorem go_getFlag_eq (h : ObjectName name) :
    Go.getFlag name (httpGet order s (flagPath name)) =
      (sidecarGetFlag ∅ s name).1 := by
  rw [httpGet_flag h, sidecarGetFlag, Finmap.lookup_empty, handleFlag]
  by_cases hstream : name = "stream"
  · rw [if_pos hstream, if_pos hstream]
    rfl
  · rw [if_neg hstream, if_neg hstream]
    cases hget : s.get name with
    | none => exact (lookups_notFound name (handleName_of_none hstream hget)).1
    | some f =>
        rw [handleName_of_get hstream hget]
        exact (lookups_flagResponse name f).1

/-! ## Lists -/

theorem mapM_map {α β γ : Type} {f : α → β} {g : β → Option γ} {h : α → γ}
    (hg : ∀ a, g (f a) = some (h a)) (l : List α) :
    (l.map f).mapM g = some (l.map h) := by
  induction l with
  | nil => rfl
  | cons a l ih => simp [hg, ih]

theorem go_decodeDocs (fs : List ResolvedFlag) :
    Go.decodeDocs (.array (fs.map ResolvedFlag.json)) =
      .ok (fs.map decodeFlag) := by
  show (fs.map ResolvedFlag.json).mapM Go.decodeDoc = _
  induction fs with
  | nil => rfl
  | cons f fs ih =>
      rw [List.map_cons, List.mapM_cons, go_decodeDoc, ih]
      rfl

/-- Every SDK lists what the map was ranged over. -/
theorem listings_eq :
    ∀ r ∈ sidecarListings order s, r = some (order.map decodeFlag) := by
  have hwritable : Json.isWritable (.array (order.map ResolvedFlag.json)) =
      true := areWritable_json order
  obtain ⟨hfirst, hread⟩ := read_encode hwritable
  have hgo : Go.getAllFlags (httpGet order s flagsPath) =
      .ok (order.map decodeFlag) := by
    rw [httpGet_flags]
    show Go.decodeBody Go.decodeDocs (.text _) = _
    rw [Go.decodeBody, hfirst]
    exact go_decodeDocs order
  have hnode : (Node.allSidecar (httpGet order s flagsPath)).toOption.bind
      Node.asFlags = some (order.map decodeFlag) := by
    rw [httpGet_flags]
    show (some ((Json.read _).getD _)).bind Node.asFlags = _
    rw [hread]
    exact mapM_map node_asFlag order
  have hpython : (Python.allSidecar (httpGet order s flagsPath)).toOption.bind
      (List.mapM Python.FlagObject.asFlag) = some (order.map decodeFlag) := by
    choose g hg hflag using python_listedFlag
    rw [httpGet_flags]
    rw [Python.allSidecar_array rfl rfl hread]
    rw [mapM_map hg order]
    exact mapM_map hflag order
  have hdotnet : (Dotnet.sidecarGetAllFlags (httpGet order s flagsPath)).mapM
      (Option.bind · Dotnet.FlagRecord.asFlag) =
        some (order.map decodeFlag) := by
    choose g hg hflag using dotnet_deserialize
    rw [httpGet_flags]
    show (((Json.read _).bind Dotnet.deserializeList).getD []).mapM _ = _
    rw [hread]
    show (((order.map ResolvedFlag.json).mapM Dotnet.deserialize).getD []).mapM
      _ = _
    have hflag' : ∀ f, (some (g f)).bind Dotnet.FlagRecord.asFlag =
        some (decodeFlag f) := hflag
    rw [mapM_map hg order]
    exact mapM_map hflag' order
  unfold sidecarListings
  dsimp only
  rw [hgo, hnode, hpython, hdotnet]
  simp [Except.toOption]

/-! ## The store, over HTTP -/

theorem givesValue_iff (h : ObjectName name) {value : String} :
    GivesValue order s name value ↔
      (s.get name).map ResolvedFlag.value = some value := by
  have hname : pathValue [("name", name)] "name" = name := by simp [pathValue]
  rw [GivesValue, httpGet_value h, handleValue, hname]
  cases s.get name with
  | none => simp [httpError]
  | some f => simp [String.toList_inj]

/-- Whatever the sidecar's store holds, all four SDKs get over HTTP: by name
each of them has the flag that is stored under it, field by field, or none if
there is none, with `stream` as the only exception; all list the flags that
there are; and the text of a value is served under every name. -/
theorem sidecar_serves_store (horder : s.Ranges order) :
    (∀ name, ObjectName name →
      (∀ r ∈ sidecarLookups order s name, r = servedFlag s name) ∧
      ∀ value, GivesValue order s name value ↔
        (s.get name).map ResolvedFlag.value = some value) ∧
    ∀ r ∈ sidecarListings order s, ∃ fs, r = some fs ∧
      (fs : Multiset Flag) = s.all.map decodeFlag := by
  refine ⟨fun name h => ⟨lookups_eq h, fun value => givesValue_iff h⟩, ?_⟩
  intro r hr
  refine ⟨_, listings_eq r hr, ?_⟩
  rw [← horder, Multiset.map_coe]

end

/-! A flag with quotes, markup and a line break in its value, next to one that
is called `stream`. -/

def quotedFlag : ResolvedFlag where
  name := "banner"
  type := "string"
  value := "\"beta\"\n<b>"
  disabled := false
  description := "shown on top"

def streamFlag : ResolvedFlag where
  name := "stream"
  type := "boolean"
  value := "true"
  disabled := false
  description := ""

def twoStored : FlagStore := (({} : FlagStore).set quotedFlag).set streamFlag

theorem sidecar_serves_store_sample :
    (∀ r ∈ sidecarLookups [streamFlag, quotedFlag] twoStored "banner",
      r = some (decodeFlag quotedFlag)) ∧
    (∀ r ∈ sidecarLookups [streamFlag, quotedFlag] twoStored "stream",
      r = none) ∧
    GivesValue [streamFlag, quotedFlag] twoStored "stream" "true" := by
  have horder : twoStored.Ranges [streamFlag, quotedFlag] := by
    unfold FlagStore.Ranges
    decide
  have hserves := (sidecar_serves_store horder).1
  have hbanner := hserves "banner" (by decide)
  have hstream := hserves "stream" (by decide)
  refine ⟨hbanner.1, hstream.1, (hstream.2 "true").mpr ?_⟩
  simp [twoStored, streamFlag]

end Vexil.Sdk
