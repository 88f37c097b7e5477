import Vexil.Sdk.ConfigFile

/-!
# Which JSON files mean the same to four SDKs

.NET reads the least: it throws unless the file is an object of well-formed
strings and nulls, or `null`, and at `null` it is Python that throws. On what is
left all four read the same members (`readMembers_lookup`), and they differ only
where a `null` stands under the name, which each makes another text of, and
where the name is missing but every JavaScript object has a property of that
name.
-/

namespace Vexil.Sdk

open Vexil.Lib

/-- A text without half a pair of surrogates in it. -/
def IsPlain (s : JsonText) : Prop := ∃ t : String, s = .ofString t

/-- A member that a map of strings can have. -/
structure IsFlat (m : JsonText × JsonValue) : Prop where
  key : IsPlain m.1
  value : m.2 = .null ∨ ∃ s, IsPlain s ∧ m.2 = .string s

/-- The file is an object of strings and nulls. What it has under the name is
no null; if it has nothing there, the name is not a property that a JavaScript
object inherits. -/
def IsCommon (doc : JsonValue) (name : String) : Prop :=
  ∃ members, doc = .object members ∧ (∀ m ∈ members, IsFlat m) ∧
    (member members (.ofString name) = none →
      Js.objectPrototype.lookup name = none) ∧
    member members (.ofString name) ≠ some .null

/-! ## Texts -/

theorem stringOf_eq_some_iff {s : JsonText} {t : String} :
    Dotnet.stringOf s = some t ↔ s = .ofString t := by
  induction s generalizing t with
  | nil =>
      rw [Dotnet.stringOf, Option.some_inj, eq_comm, JsonText.ofString,
        eq_comm (a := []), List.map_eq_nil_iff, String.toList_eq_nil_iff]
  | cons c s ih =>
      cases c with
      | surrogate n =>
          refine iff_of_false (Option.some_ne_none t).symm fun h => ?_
          obtain ⟨_, _, hc⟩ := List.mem_map.mp
            (h ▸ List.mem_cons_self : JsonChar.surrogate n ∈ t.toList.map _)
          cases hc
      | scalar c =>
          rw [Dotnet.stringOf, Option.map_eq_some_iff]
          refine ⟨fun h => ?_, fun h => ?_⟩
          · obtain ⟨rest, hrest, rfl⟩ := h
            rw [ih.mp hrest]
            simp [JsonText.ofString]
          · obtain ⟨d, rest, ht⟩ : ∃ d rest, t.toList = d :: rest := by
              refine List.exists_cons_of_ne_nil fun hnil => ?_
              rw [JsonText.ofString, hnil] at h
              cases h
            rw [JsonText.ofString, ht, List.map_cons] at h
            obtain ⟨hc, hrest⟩ := List.cons.inj h
            refine ⟨String.ofList rest, ih.mpr ?_, ?_⟩
            · rw [hrest, JsonText.ofString, String.toList_ofList]
            · rw [← String.toList_inj, ht, String.toList_append,
                String.toList_singleton, String.toList_ofList,
                JsonChar.scalar.inj hc]
              rfl

/-! ## Members -/

section
variable {E V : Type} {read : JsonText × JsonValue → Except E (String × V)}

/-- If the members can be read, they are read one by one. -/
theorem readMembers_eq_ok {f : JsonText × JsonValue → String × V}
    {members : List (JsonText × JsonValue)}
    (h : ∀ m ∈ members, read m = .ok (f m)) (m : GoMap V) :
    readMembers read m members =
      .ok ((members.map f).foldl (fun m e => m.insert e.1 e.2) m) := by
  induction members generalizing m with
  | nil => rfl
  | cons e es ih =>
      rw [readMembers, h e List.mem_cons_self]
      exact ih (fun e' he' => h e' (.tail _ he')) _

theorem read_of_readMembers {members : List (JsonText × JsonValue)}
    {m result : GoMap V} (h : readMembers read m members = .ok result) :
    ∀ e ∈ members, ∃ kv, read e = .ok kv := by
  induction members generalizing m with
  | nil => exact fun e he => absurd he List.not_mem_nil
  | cons e es ih =>
      intro e' he'
      rw [readMembers] at h
      cases hread : read e with
      | error err =>
          rw [hread] at h
          cases h
      | ok kv =>
          rw [hread] at h
          obtain rfl | he' := List.mem_cons.mp he'
          · exact ⟨kv, hread⟩
          · exact ih h e' he'

/-- Of the members under a name the last one is what the map has. -/
theorem readMembers_lookup {key : JsonText → String} {value : JsonValue → V}
    {members : List (JsonText × JsonValue)} {name : String}
    (h : ∀ m ∈ members, read m = .ok (key m.1, value m.2))
    (hkey : ∀ m ∈ members, key m.1 = name ↔ m.1 = .ofString name) :
    ∃ result, readMembers read ∅ members = .ok result ∧
      result.lookup name = (member members (.ofString name)).map value := by
  refine ⟨_, readMembers_eq_ok (f := fun m => (key m.1, value m.2)) h ∅, ?_⟩
  have hfilter : (members.map fun m => (key m.1, value m.2)).filter
      (fun e => e.1 = name) =
        (members.filter fun m => m.1 = .ofString name).map
          fun m => (key m.1, value m.2) := by
    rw [List.filter_map]
    refine congrArg (List.map _) (List.filter_congr fun m hm => ?_)
    exact decide_eq_decide.mpr (hkey m hm)
  rw [GoMap.lookup_foldl_insert, hfilter, Finmap.lookup_empty, Option.or_none,
    List.getLast?_map, Option.map_map, member, Option.map_map]
  rfl

end

theorem mem_of_member {members : List (JsonText × JsonValue)} {k : JsonText}
    {v : JsonValue} (h : member members k = some v) : (k, v) ∈ members := by
  obtain ⟨⟨k', v'⟩, hlast, rfl⟩ := Option.map_eq_some_iff.mp h
  obtain ⟨hmem, hkey⟩ := List.mem_filter.mp (List.mem_of_getLast? hlast)
  obtain rfl : k' = k := of_decide_eq_true hkey
  exact hmem

/-! ## The four on an object of strings and nulls -/

section
variable {members : List (JsonText × JsonValue)} {name : String}

/-- What Go has for a member of such an object. -/
def goValue : JsonValue → String
  | .string s => goText s
  | _ => ""

def dotnetKey (k : JsonText) : String := (Dotnet.stringOf k).getD ""

/-- What .NET has for it. -/
def dotnetValue : JsonValue → Option String
  | .string s => Dotnet.stringOf s
  | _ => none

theorem unmarshalMember_of_flat {m : JsonText × JsonValue} (h : IsFlat m) :
    unmarshalMember m = .ok (goText m.1, goValue m.2) := by
  rw [unmarshalMember]
  obtain hnull | ⟨s, _, hs⟩ := h.value
  · rw [hnull]
    rfl
  · rw [hs]
    rfl

theorem readMember_of_flat {m : JsonText × JsonValue} (h : IsFlat m) :
    Dotnet.readMember m = .ok (dotnetKey m.1, dotnetValue m.2) := by
  obtain ⟨t, ht⟩ := h.key
  rw [Dotnet.readMember, dotnetKey, stringOf_eq_some_iff.mpr ht]
  obtain hnull | ⟨s, ⟨t', ht'⟩, hs⟩ := h.value
  · rw [hnull]
    rfl
  · rw [hs, dotnetValue]
    simp only [stringOf_eq_some_iff.mpr ht']
    rfl

/-- Only such members are read by .NET. -/
theorem flat_of_readMember {m : JsonText × JsonValue}
    {kv : String × Option String} (h : Dotnet.readMember m = .ok kv) :
    IsFlat m := by
  obtain ⟨k, v⟩ := m
  rw [Dotnet.readMember] at h
  cases hk : Dotnet.stringOf k with
  | none =>
      rw [hk] at h
      cases h
  | some t =>
      rw [hk] at h
      refine ⟨⟨t, stringOf_eq_some_iff.mp hk⟩, ?_⟩
      cases v with
      | null => exact .inl rfl
      | string s =>
          cases hs : Dotnet.stringOf s with
          | none =>
              simp only [hs] at h
              cases h
          | some t' => exact .inr ⟨s, ⟨t', stringOf_eq_some_iff.mp hs⟩, rfl⟩
      | bool b => cases h
      | number numeral => cases h
      | array elems => cases h
      | object members => cases h

theorem goLookup_of_flat (h : ∀ m ∈ members, IsFlat m) :
    goLookup (.object members) name =
      match member members (.ofString name) with
      | none => .absent
      | some v => .found (some (.ofString (goValue v))) := by
  have hkey : ∀ m ∈ members, goText m.1 = name ↔ m.1 = .ofString name := by
    intro m hm
    obtain ⟨t, ht⟩ := (h m hm).key
    rw [ht, goText_ofString, ofString_eq_iff]
  obtain ⟨flags, hflags, hlookup⟩ := readMembers_lookup
    (fun m hm => unmarshalMember_of_flat (h m hm)) hkey
  rw [goLookup, unmarshal, hflags, configMapProvider]
  simp only [hlookup]
  cases member members (.ofString name) with
  | none => rfl
  | some v => rfl

theorem dotnet_of_flat (h : ∀ m ∈ members, IsFlat m) :
    Dotnet.configMapGetFlag (.object members) name =
      match member members (.ofString name) with
      | none => .absent
      | some v => .found ((dotnetValue v).map .ofString) := by
  have hkey : ∀ m ∈ members, dotnetKey m.1 = name ↔ m.1 = .ofString name := by
    intro m hm
    obtain ⟨t, ht⟩ := (h m hm).key
    rw [dotnetKey, stringOf_eq_some_iff.mpr ht, Option.getD_some, ht,
      ofString_eq_iff]
  obtain ⟨flags, hflags, hlookup⟩ := readMembers_lookup
    (fun m hm => readMember_of_flat (h m hm)) hkey
  rw [Dotnet.configMapGetFlag, Dotnet.readJsonFile, hflags]
  simp only [hlookup]
  cases member members (.ofString name) with
  | none => rfl
  | some v => rfl

variable {printing : Printing}

theorem readable_of_flat (h : ∀ m ∈ members, IsFlat m) :
    Py.readable printing (.object members) = true := by
  rw [Py.readable]
  induction members with
  | nil => rfl
  | cons m ms ih =>
      have hm : Py.readable printing m.2 = true := by
        obtain hnull | ⟨s, _, hs⟩ := (h m List.mem_cons_self).value
        · rw [hnull]
          rfl
        · rw [hs]
          rfl
      rw [Py.readableMembers, hm, Bool.true_and]
      exact ih fun m' hm' => h m' (.tail _ hm')

theorem python_of_flat (h : ∀ m ∈ members, IsFlat m) :
    Python.getConfigmap printing (.object members) name =
      match member members (.ofString name) with
      | none => .absent
      | some v => .found (some (Py.str printing v)) := by
  unfold Python.getConfigmap
  exact if_pos (readable_of_flat h)

theorem node_object : Node.getConfigMap printing (.object members) name =
    match member members (.ofString name) with
    | none =>
        match Js.objectPrototype.lookup name with
        | none => .absent
        | some text => .found (some (.ofString text))
    | some v =>
        match Js.string printing v with
        | none => .absent
        | some text => .found (some text) := by
  rw [Node.getConfigMap, Js.lookIn]
  cases member members (.ofString name) with
  | none => cases Js.objectPrototype.lookup name <;> rfl
  | some v =>
      simp only
      cases Js.string printing v <;> rfl

/-- Where a string stands under the name, all four find it. -/
theorem lookups_of_string {s : JsonText} (h : ∀ m ∈ members, IsFlat m)
    (hmember : member members (.ofString name) = some (.string s)) :
    ∀ l ∈ fileLookups printing (.object members) name, l = .found (some s) := by
  obtain ⟨t, rfl⟩ : IsPlain s := by
    obtain hnull | ⟨s', hplain, hs⟩ := (h _ (mem_of_member hmember)).value
    · cases hnull
    · rwa [JsonValue.string.inj hs]
  intro l hl
  rw [fileLookups, goLookup_of_flat h, node_object, python_of_flat h,
    dotnet_of_flat h, hmember] at hl
  simp only [Js.string, Py.str, goValue, dotnetValue, goText_ofString,
    stringOf_eq_some_iff.mpr rfl, Option.map_some, List.mem_cons,
    List.not_mem_nil, or_false, or_self] at hl
  exact hl

/-- Where nothing stands under the name, only Node may find something. -/
theorem lookups_of_none (h : ∀ m ∈ members, IsFlat m)
    (hmember : member members (.ofString name) = none) :
    fileLookups printing (.object members) name =
      [.absent, Node.getConfigMap printing (.object members) name, .absent,
        .absent] := by
  rw [fileLookups, goLookup_of_flat h, python_of_flat h, dotnet_of_flat h,
    hmember]

end

/-! ## Every document -/

section
variable {printing : Printing} {doc : JsonValue} {name : String}

theorem SameLookup.ne_raised {lookups : List Lookup} (h : SameLookup lookups)
    {l : Lookup} (hl : l ∈ lookups) : l ≠ .raised := by
  rintro rfl
  obtain habsent | ⟨value, hfound⟩ := h
  · cases habsent _ hl
  · cases hfound _ hl

theorem SameLookup.eq_of_absent {lookups : List Lookup}
    (h : SameLookup lookups) (habsent : Lookup.absent ∈ lookups) :
    ∀ l ∈ lookups, l = .absent := by
  obtain hall | ⟨value, hfound⟩ := h
  · exact hall
  · cases hfound _ habsent

/-- What neither .NET nor Python throws at. -/
theorem object_of_not_raised
    (hdotnet : Dotnet.configMapGetFlag doc name ≠ .raised)
    (hpython : Python.getConfigmap printing doc name ≠ .raised) :
    ∃ members, doc = .object members ∧ ∀ m ∈ members, IsFlat m := by
  cases doc with
  | object members =>
      refine ⟨members, rfl, fun m hm => ?_⟩
      cases hread : readMembers Dotnet.readMember ∅ members with
      | error err =>
          rw [Dotnet.configMapGetFlag, Dotnet.readJsonFile, hread] at hdotnet
          exact absurd rfl hdotnet
      | ok flags =>
          obtain ⟨kv, hkv⟩ := read_of_readMembers hread m hm
          exact flat_of_readMember hkv
  | null => exact absurd rfl hpython
  | bool b => exact absurd rfl hdotnet
  | number numeral => exact absurd rfl hdotnet
  | string s => exact absurd rfl hdotnet
  | array elems => exact absurd rfl hdotnet

/-- The four SDKs agree on a name in a file exactly if the file is of the common
kind, however each prints what is no string. -/
theorem config_file_means_the_same_iff (printing : Printing) (doc : JsonValue)
    (name : String) :
    SameLookup (fileLookups printing doc name) ↔ IsCommon doc name := by
  refine ⟨fun h => ?_, fun h => ?_⟩
  · have hdotnet : Dotnet.configMapGetFlag doc name ≠ .raised :=
      h.ne_raised (by simp [fileLookups])
    have hpython : Python.getConfigmap printing doc name ≠ .raised :=
      h.ne_raised (by simp [fileLookups])
    obtain ⟨members, rfl, hflat⟩ := object_of_not_raised hdotnet hpython
    refine ⟨members, rfl, hflat, fun hnone => ?_, fun hnull => ?_⟩
    · rw [lookups_of_none hflat hnone] at h
      have hnode := h.eq_of_absent List.mem_cons_self
        (Node.getConfigMap printing (.object members) name) (by simp)
      rw [node_object, hnone] at hnode
      cases hinherited : Js.objectPrototype.lookup name with
      | none => rfl
      | some text =>
          simp only [hinherited] at hnode
          cases hnode
    · -- Go has the empty text for a null, and .NET has none.
      have hgo : goLookup (.object members) name = .found (some []) := by
        rw [goLookup_of_flat hflat, hnull]
        rfl
      have hnet : Dotnet.configMapGetFlag (.object members) name =
          .found none := by
        rw [dotnet_of_flat hflat, hnull]
        rfl
      obtain habsent | ⟨value, hfound⟩ := h
      · have hcontra := habsent _ List.mem_cons_self
        rw [hgo] at hcontra
        cases hcontra
      · have hcontra := hfound (Dotnet.configMapGetFlag (.object members) name)
          (by simp [fileLookups])
        rw [hnet] at hcontra
        cases hcontra
  · obtain ⟨members, rfl, hflat, hinherited, hnull⟩ := h
    cases hmember : member members (.ofString name) with
    | none =>
        have hnode : Node.getConfigMap printing (.object members) name =
            .absent := by
          rw [node_object, hmember]
          simp only [hinherited hmember]
        left
        rw [lookups_of_none hflat hmember, hnode]
        simp
    | some v =>
        obtain hv | ⟨s, _, hs⟩ := (hflat _ (mem_of_member hmember)).value
        · exact absurd (hv ▸ hmember) hnull
        · obtain rfl : v = .string s := hs
          exact .inr ⟨s, lookups_of_string hflat hmember⟩

end

/-- Python prints characters as they are, and numbers are what they say. -/
def asWritten : Printing where
  jsNumber := id
  pyNumber := some
  isPrintable := fun _ => true

/-- A flag that was written as a Boolean, and not as text. -/
def booleanFile : JsonValue :=
  .object [(.ofString "dark-mode", .bool true),
    (.ofString "banner", .string (.ofString "hello"))]

/-- Two do not find the flag, with one it throws, and two have a value each. The
other flag of the file is found by the same two only. -/
theorem config_file_apart_booleanFile :
    fileLookups asWritten booleanFile "dark-mode" =
      [.absent, .found (some (.ofString "true")),
        .found (some (.ofString "True")), .raised] ∧
    fileLookups asWritten booleanFile "banner" =
      [.absent, .found (some (.ofString "hello")),
        .found (some (.ofString "hello")), .raised] ∧
    ¬ ∀ (doc : JsonValue) (name : String),
      SameLookup (fileLookups asWritten doc name) := by
  have hbanner : fileLookups asWritten booleanFile "banner" =
      [.absent, .found (some (.ofString "hello")),
        .found (some (.ofString "hello")), .raised] := by decide +kernel
  refine ⟨by decide +kernel, hbanner, fun hall => ?_⟩
  refine (hall booleanFile "banner").ne_raised ?_ rfl
  rw [hbanner]
  simp

end Vexil.Sdk
