import Mathlib.Data.List.TakeWhile
import Vexil.Lib.Json
import Vexil.Sdk.Stream

/-!
# The stream round trip

The handler writes whole lines, so the scanner gives them back one by one, up to
the first that does not fit its buffer; the other two lines of an event are
short, and the reader passes over them. What is stored is therefore the flags in
order up to the first whose JSON is too long, and nothing after it:
`streamUpdates_writeStream`. The round trip succeeds exactly if there is none.

The last part is an implementation of the JSON parameter, with the escapes of
`encoding/json`, that has the two properties asked for.
-/

namespace Vexil.Sdk

open Vexil.Lib Vexil.Sidecar

section
variable [FlagJson]

/-- Go's encoder writes no control character, it escapes them. -/
def WritesPrintable : Prop := ∀ f, Json.Printable (FlagJson.marshal f)

/-- `Unmarshal` inverts `Marshal` on the fields of a `Flag`. -/
def UnmarshalInverts : Prop :=
  ∀ f, FlagJson.unmarshal (FlagJson.marshal f) = some (decodeFlag f)

/-- The data line of the flag is one the scanner's buffer can hold. -/
def Fits (f : ResolvedFlag) : Prop :=
  byteSize (dataPrefix ++ FlagJson.marshal f) < maxTokenSize

instance (f : ResolvedFlag) : Decidable (Fits f) :=
  inferInstanceAs (Decidable (_ < maxTokenSize))

/-! ## Lines -/

/-- The lines of one event. -/
def eventLines (f : ResolvedFlag) : List (List Char) :=
  [eventLine, dataPrefix ++ FlagJson.marshal f, []]

theorem writeStream_lines (fs : List ResolvedFlag) : writeStream fs =
    (fs.flatMap eventLines).flatMap fun line => line ++ ['\n'] := by
  rw [List.flatMap_assoc]
  refine List.flatMap_congr fun f _ => ?_
  simp [writeEvent, eventLines]

omit [FlagJson] in
theorem isLine_of_printable {line : List Char} (h : Json.Printable line) :
    IsLine line where
  no_newline hmem := absurd (h '\n' hmem) (by decide)
  no_return hlast := absurd (h '\r' (List.mem_of_getLast? hlast)) (by decide)

theorem isLine_eventLines (hprint : WritesPrintable) (f : ResolvedFlag) :
    ∀ line ∈ eventLines f, IsLine line := by
  have hevent : Json.Printable eventLine := by decide
  have hdata : Json.Printable (dataPrefix ++ FlagJson.marshal f) :=
    Json.Printable.append (by decide) (hprint f)
  have hempty : Json.Printable [] := by decide
  intro line hline
  simp only [eventLines, List.mem_cons, List.not_mem_nil, or_false] at hline
  rcases hline with rfl | rfl | rfl
  · exact isLine_of_printable hevent
  · exact isLine_of_printable hdata
  · exact isLine_of_printable hempty

theorem readLine_event : readLine eventLine = none := by
  rw [readLine, if_neg (by decide)]

theorem readLine_empty : readLine [] = none := by
  rw [readLine, if_neg (by decide)]

theorem readLine_data (hinv : UnmarshalInverts) (f : ResolvedFlag) :
    readLine (dataPrefix ++ FlagJson.marshal f) = some (decodeFlag f) := by
  rw [readLine, if_pos (by simp), List.drop_left, hinv]

/-! ## The stream -/

theorem streamUpdates_cons (hprint : WritesPrintable)
    (hinv : UnmarshalInverts) (f : ResolvedFlag) (fs : List ResolvedFlag) :
    streamUpdates (writeStream (f :: fs)) =
      if Fits f then decodeFlag f :: streamUpdates (writeStream fs) else [] := by
  have hlines : ∀ fs : List ResolvedFlag,
      ∀ line ∈ fs.flatMap eventLines, IsLine line := by
    intro fs line hline
    obtain ⟨g, _, hg⟩ := List.mem_flatMap.mp hline
    exact isLine_eventLines hprint g line hg
  have hscan : ∀ fs : List ResolvedFlag, scanLines (writeStream fs) =
      (fs.flatMap eventLines).takeWhile
        fun line => byteSize line < maxTokenSize := by
    intro fs
    rw [writeStream_lines, scanLines_lines (hlines fs)]
  have hevent : byteSize eventLine < maxTokenSize := by decide
  have hempty : byteSize [] < maxTokenSize := by decide
  rw [streamUpdates, hscan, List.flatMap_cons, eventLines]
  simp only [List.cons_append, List.nil_append, List.takeWhile_cons, hevent,
    hempty, decide_true, if_true]
  rw [List.filterMap_cons_none readLine_event]
  by_cases hfits : Fits f
  · have hfits' : byteSize (dataPrefix ++ FlagJson.marshal f) < maxTokenSize :=
      hfits
    rw [if_pos hfits, decide_eq_true hfits', if_pos rfl,
      List.filterMap_cons_some (readLine_data hinv f),
      List.filterMap_cons_none readLine_empty, ← hscan]
    rfl
  · have hfits' : ¬ byteSize (dataPrefix ++ FlagJson.marshal f) <
      maxTokenSize := hfits
    rw [if_neg hfits, decide_eq_false hfits']
    rfl

/-- The flags are stored in order, up to the first that does not fit. -/
theorem streamUpdates_writeStream (hprint : WritesPrintable)
    (hinv : UnmarshalInverts) (fs : List ResolvedFlag) :
    streamUpdates (writeStream fs) =
      (fs.takeWhile fun f => Fits f).map decodeFlag := by
  induction fs with
  | nil => rfl
  | cons f fs ih =>
      rw [streamUpdates_cons hprint hinv, ih, List.takeWhile_cons]
      by_cases hfits : Fits f
      · simp [hfits]
      · simp [hfits]

/-- The reader stores what was written exactly if every flag fits. -/
theorem stream_round_trip_iff (hprint : WritesPrintable)
    (hinv : UnmarshalInverts) (fs : List ResolvedFlag) :
    streamUpdates (writeStream fs) = fs.map decodeFlag ↔ ∀ f ∈ fs, Fits f := by
  rw [streamUpdates_writeStream hprint hinv]
  constructor
  · intro h
    have hlength := congrArg List.length h
    rw [List.length_map, List.length_map] at hlength
    have hall : fs.takeWhile (fun f => Fits f) = fs :=
      (List.takeWhile_sublist _).eq_of_length hlength
    intro f hf
    exact of_decide_eq_true (List.takeWhile_eq_self_iff.mp hall f hf)
  · intro h
    rw [List.takeWhile_eq_self_iff.mpr fun f hf => decide_eq_true (h f hf)]

end

/-! ## The flag as JSON -/

namespace GoJson

def nameKey : List Char := "\x7b\"name\":".toList
def typeKey : List Char := ",\"type\":".toList
def valueKey : List Char := ",\"value\":".toList
def disabledKey : List Char := ",\"disabled\":".toList
def descriptionKey : List Char := ",\"description\":".toList
def closing : List Char := "\x7d".toList

/-- An empty description is left out. -/
def marshalDescription (description : String) : List Char :=
  if description = "" then []
  else descriptionKey ++ Json.marshalString description

def marshal (f : ResolvedFlag) : List Char :=
  nameKey ++ (Json.marshalString f.name ++ (typeKey ++
    (Json.marshalString f.type ++ (valueKey ++
      (Json.marshalString f.value ++ (disabledKey ++
        (Json.marshalBool f.disabled ++
          (marshalDescription f.description ++ closing))))))))

/-- A `Flag` has no description, so it is passed over. -/
def skipDescription (cs : List Char) : Option (List Char) :=
  match Json.literal descriptionKey cs with
  | none => some cs
  | some cs => (Json.unmarshalString cs).map Prod.snd

/-- `Unmarshal` of an object whose keys come in the order of the fields. -/
def unmarshal (cs : List Char) : Option Flag := do
  let cs ← Json.literal nameKey cs
  let (name, cs) ← Json.unmarshalString cs
  let cs ← Json.literal typeKey cs
  let (type, cs) ← Json.unmarshalString cs
  let cs ← Json.literal valueKey cs
  let (value, cs) ← Json.unmarshalString cs
  let cs ← Json.literal disabledKey cs
  let (disabled, cs) ← Json.unmarshalBool cs
  let cs ← skipDescription cs
  let rest ← Json.literal closing cs
  if rest = [] then
    some { name := name, type := type, value := value, disabled := disabled }
  else none

theorem skipDescription_marshal (description : String) :
    skipDescription (marshalDescription description ++ closing) =
      some closing := by
  unfold marshalDescription
  split
  · have hno : Json.literal descriptionKey closing = none := by decide
    rw [List.nil_append, skipDescription, hno]
  · rw [List.append_assoc, skipDescription, Json.literal_append]
    dsimp only
    rw [Json.unmarshalString_marshalString]
    rfl

theorem literal_closing : Json.literal closing closing = some [] := by decide

theorem unmarshal_marshal (f : ResolvedFlag) :
    unmarshal (marshal f) = some (decodeFlag f) := by
  unfold unmarshal marshal
  simp only [Json.literal_append, Json.unmarshalString_marshalString,
    Json.unmarshalBool_marshalBool, skipDescription_marshal, literal_closing,
    Option.bind_eq_bind, Option.bind_some, if_true]
  rfl

theorem printable_marshal (f : ResolvedFlag) : Json.Printable (marshal f) := by
  have hstring := Json.printable_marshalString
  have hdescription : Json.Printable (marshalDescription f.description) := by
    unfold marshalDescription
    split
    · decide
    · exact Json.Printable.append (by decide) (hstring _)
  exact .append (by decide) (.append (hstring _) (.append (by decide)
    (.append (hstring _) (.append (by decide) (.append (hstring _)
      (.append (by decide) (.append (Json.printable_marshalBool _)
        (.append hdescription (by decide)))))))))

end GoJson

@[reducible] def goJson : FlagJson where
  marshal := GoJson.marshal
  unmarshal := GoJson.unmarshal

theorem not_fits_of_long {f : ResolvedFlag}
    (h : maxTokenSize ≤ f.value.toList.length) :
    letI := goJson
    ¬ Fits f := by
  have hmarshal : (Json.marshalString f.value).length ≤
      (GoJson.marshal f).length := by
    simp only [GoJson.marshal, List.length_append]
    omega
  have hvalue := Json.length_le_marshalString f.value
  have hbytes := length_le_byteSize (dataPrefix ++ GoJson.marshal f)
  rw [List.length_append] at hbytes
  show ¬ byteSize (dataPrefix ++ GoJson.marshal f) < maxTokenSize
  omega

/-! A flag whose text has a quote and a line break in it, and one whose value is
64 KiB long. -/

def bannerFlag : ResolvedFlag where
  name := "banner"
  type := "string"
  value := "\"beta\"\n<b>"
  disabled := false
  description := ""

def blobFlag : ResolvedFlag where
  name := "blob"
  type := "json"
  value := String.ofList (List.replicate 65536 'x')
  disabled := false
  description := ""

/-- The long flag is lost, and the one after it too. -/
theorem long_flag_ends_stream :
    letI := goJson
    streamUpdates (writeStream [blobFlag, bannerFlag]) ≠
      [blobFlag, bannerFlag].map decodeFlag := by
  let := goJson
  have hlong : maxTokenSize ≤ blobFlag.value.toList.length := by
    rw [blobFlag, String.toList_ofList, List.length_replicate]
    decide
  have hnone : streamUpdates (writeStream [blobFlag, bannerFlag]) = [] := by
    rw [streamUpdates_cons GoJson.printable_marshal GoJson.unmarshal_marshal,
      if_neg (not_fits_of_long hlong)]
  rw [hnone]
  simp

theorem stream_round_trip_iff_sample :
    letI := goJson
    (∀ f ∈ [bannerFlag, bannerFlag], Fits f) ∧
    streamUpdates (writeStream [bannerFlag, bannerFlag]) =
      [bannerFlag, bannerFlag].map decodeFlag := by
  have hbanner : @Fits goJson bannerFlag := by decide +kernel
  let := goJson
  have hfits : ∀ f ∈ [bannerFlag, bannerFlag], Fits f := by
    intro f hf
    simp only [List.mem_cons, List.not_mem_nil, or_false, or_self] at hf
    exact hf ▸ hbanner
  exact ⟨hfits, (stream_round_trip_iff GoJson.printable_marshal
    GoJson.unmarshal_marshal _).mpr hfits⟩

end Vexil.Sdk
