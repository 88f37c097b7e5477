import Mathlib.Data.List.DropRight
import Vexil.Proofs.StreamCodec
import Vexil.Sdk.Cache

/-!
# One value over three ways

A string flag reaches a Go process as a variable, as a file or as a JSON
document. The variable is read as it stands, and the document is one the decoder
gives the encoder's string back from, escapes and all. A file is read with the
white space at its ends cut off, as every SDK does it, since a file usually ends
in a line break; so the value of a flag comes through a mounted ConfigMap
unchanged exactly when it has no white space at either end.

The sidecar has no document for a flag called `stream`: the path belongs to the
event stream.
-/

namespace Vexil.Sdk

open Vexil.Lib Vexil.Sidecar

/-! ## A file -/

/-- No white space at either end. -/
def Bare (s : String) : Prop :=
  (∀ c ∈ s.toList.head?, isSpace c = false) ∧
    ∀ c ∈ s.toList.getLast?, isSpace c = false

instance (s : String) : Decidable (Bare s) :=
  @instDecidableAnd _ _ (Option.decidableForallMem _)
    (Option.decidableForallMem _)

theorem toList_trimSpace (s : String) :
    (trimSpace s).toList =
      (s.toList.dropWhile isSpace).rdropWhile isSpace := by
  rw [trimSpace, String.toList_ofList, List.rdropWhile]

theorem bare_trimSpace (s : String) : Bare (trimSpace s) := by
  rw [Bare, toList_trimSpace]
  constructor
  · intro c hc
    obtain ⟨rest, hrest⟩ :=
      List.rdropWhile_prefix isSpace (l := s.toList.dropWhile isSpace)
    have hhead : (s.toList.dropWhile isSpace).head? = some c := by
      rw [← hrest, List.head?_append, Option.mem_def.mp hc]
      rfl
    have hnot := List.head?_dropWhile_not isSpace s.toList
    rw [hhead] at hnot
    exact hnot
  · intro c hc
    obtain ⟨hne, rfl⟩ := List.mem_getLast?_eq_getLast hc
    exact Bool.eq_false_iff.mpr (List.rdropWhile_last_not isSpace _ hne)

/-- A text is trimmed to itself when there is nothing to take off. -/
theorem trimSpace_eq_self {s : String} : trimSpace s = s ↔ Bare s := by
  constructor
  · intro h
    have hbare := bare_trimSpace s
    rwa [h] at hbare
  · rintro ⟨hhead, hlast⟩
    have hdrop : s.toList.dropWhile isSpace = s.toList := by
      rw [List.dropWhile_eq_self_iff]
      intro hpos
      rw [hhead _ (by simp [List.head?_eq_getElem?, hpos])]
      exact Bool.false_ne_true
    have hrdrop : s.toList.rdropWhile isSpace = s.toList := by
      rw [List.rdropWhile_eq_self_iff]
      intro hne
      rw [hlast _ (List.getLast?_eq_some_getLast hne)]
      exact Bool.false_ne_true
    rw [← String.toList_inj, toList_trimSpace, hdrop, hrdrop]

/-! ## A document -/

/-- `json.NewEncoder(w).Encode(f)`. -/
def encode (f : ResolvedFlag) : List Char := GoJson.marshal f ++ ['\n']

/-- `json.NewDecoder(resp.Body).Decode`: the document is the first line. -/
def decode (body : List Char) : Option Flag :=
  GoJson.unmarshal (body.takeWhile (· ≠ '\n'))

theorem decode_encode (f : ResolvedFlag) :
    decode (encode f) = some (decodeFlag f) := by
  have hline : ∀ c ∈ GoJson.marshal f, decide (c ≠ '\n') = true := by
    intro c hc
    have hprintable := GoJson.printable_marshal f c hc
    simp only [decide_eq_true_eq]
    rintro rfl
    exact absurd hprintable (by decide)
  rw [decode, encode, List.takeWhile_append_of_pos hline]
  simpa using GoJson.unmarshal_marshal f

/-- `sidecarProvider.GetFlag` with the bytes of the response. -/
def fetchFlag (cache : GoMap Flag) (s : FlagStore) (name : String) :
    Except String Flag × GoMap Flag :=
  match cache.lookup name with
  | some f => (.ok f, cache)
  | none =>
      match handleFlag s name with
      | .eventStream => (.error "no JSON document in the response", cache)
      | .notFound => (.error ("flag " ++ name ++ " not found"), cache)
      | .ok f =>
          match decode (encode f) with
          | none => (.error "invalid document", cache)
          | some flag => (.ok flag, cache.insert name flag)

/-- The bytes carry the flag, so they can be left out. -/
theorem fetchFlag_eq (cache : GoMap Flag) (s : FlagStore) (name : String) :
    fetchFlag cache s name = sidecarGetFlag cache s name := by
  unfold fetchFlag sidecarGetFlag
  cases cache.lookup name with
  | some f => rfl
  | none =>
      cases handleFlag s name with
      | eventStream => rfl
      | notFound => rfl
      | ok f =>
          dsimp only
          rw [decode_encode]

/-- The provider of a process with that cache. -/
def fetchProvider (cache : GoMap Flag) (s : FlagStore) : Provider :=
  fun name => (fetchFlag cache s name).1

theorem fetchProvider_ok {cache : GoMap Flag} {s : FlagStore} {n : String}
    {f : ResolvedFlag} (hname : n ≠ "stream") (hf : s.get n = some f)
    (hcache : ∀ g, cache.lookup n = some g → g = decodeFlag f) :
    fetchProvider cache s n = .ok (decodeFlag f) := by
  rw [fetchProvider, fetchFlag_eq, sidecarGetFlag]
  cases hg : cache.lookup n with
  | some g => rw [hcache g hg]
  | none => rw [handleFlag, if_neg hname, hf]

/-! ## The getter -/

theorem Client.string_ok {provider : Provider} {n d : String} {f : Flag}
    (hf : provider n = .ok f) (hon : f.disabled = false) :
    Client.string ⟨provider⟩ n d = f.value := by
  simp only [Client.string, hf, hon]
  rfl

/-- Whatever the default, the variable of a flag and the sidecar give its value,
and a mounted file gives it without the white space at its ends. -/
theorem string_same_value (n v d : String) :
    (∀ env : GoMap String, env.lookup (flagNameToEnvVar n) = some v →
      Client.string ⟨envProvider env⟩ n d = v) ∧
    (∀ files : GoMap String, files.lookup n = some v →
      Client.string ⟨configMapProvider (.dir files)⟩ n d = trimSpace v ∧
      (Client.string ⟨configMapProvider (.dir files)⟩ n d = v ↔ Bare v)) ∧
    (ObjectName n → n ≠ "stream" → ∀ s f, s.get n = some f →
      f.disabled = false → f.value = v → ∀ cache : GoMap Flag,
      (∀ g, cache.lookup n = some g → g = decodeFlag f) →
      Client.string ⟨fetchProvider cache s⟩ n d = v) := by
  refine ⟨?_, ?_, ?_⟩
  · intro env henv
    have hok : envProvider env n =
        .ok { name := n, type := "string", value := v } := by
      rw [envProvider, henv]
    exact Client.string_ok hok rfl
  · intro files hfile
    have hok : configMapProvider (.dir files) n =
        .ok { name := n, type := "string", value := trimSpace v } := by
      simp only [configMapProvider, hfile]
    have hvalue : Client.string ⟨configMapProvider (.dir files)⟩ n d =
        trimSpace v := Client.string_ok hok rfl
    refine ⟨hvalue, ?_⟩
    rw [hvalue]
    exact trimSpace_eq_self
  · intro _ hname s f hf hon hv cache hcache
    rw [← hv]
    exact Client.string_ok (fetchProvider_ok hname hf hcache) hon

def bannerStore (name value : String) : FlagStore :=
  FlagStore.set {} {
    name := name, type := "string", value := value, disabled := false,
    description := "" }

theorem string_same_value_sample :
    Client.string ⟨envProvider (GoMap.single "FLAG_BANNER" " hi\n")⟩ "banner"
      "d" = " hi\n" ∧
    Client.string ⟨configMapProvider (.dir (GoMap.single "banner" "a b"))⟩
      "banner" "d" = "a b" ∧
    Client.string ⟨fetchProvider ∅ (bannerStore "banner" "\"hi\" \n")⟩
      "banner" "d" = "\"hi\" \n" := by
  refine ⟨?_, ?_, ?_⟩
  · exact (string_same_value "banner" " hi\n" "d").1 _ rfl
  · exact ((string_same_value "banner" "a b" "d").2.1 _ rfl).2.mpr (by decide)
  · exact (string_same_value "banner" "\"hi\" \n" "d").2.2 (by decide)
      (by decide) (bannerStore "banner" "\"hi\" \n") _ rfl rfl rfl ∅ nofun

/-- A file that ends in a line break is read without it, a flag called `stream`
has its value only as a variable and as a file, and a flag that is in the cache
keeps the value it has there. -/
theorem file_value_is_cut :
    Client.string ⟨configMapProvider (.dir (GoMap.single "banner" "hi\n"))⟩
      "banner" "d" = "hi" ∧
    (bannerStore "stream" "on").get "stream" ≠ none ∧
    Client.string ⟨fetchProvider ∅ (bannerStore "stream" "on")⟩ "stream" "d" =
      "d" ∧
    Client.string ⟨fetchProvider (GoMap.single "banner"
        { name := "banner", type := "string", value := "old" })
      (bannerStore "banner" "new")⟩ "banner" "d" = "old" := by
  refine ⟨by decide, by decide, by decide, by decide⟩

end Vexil.Sdk
