import Vexil.Kube.Names
import Vexil.Web.Labels

/-!
# Valid labels through the text of the form

The edit form shows labels as one text and reads it back when it is saved. The
text separates with `,` and `=` and loses white space around a label, and no
label has any of these: of what a text can spell (`CleanLabel`) valid labels are
a part. An empty value is one of them, and stays a label with an empty value.

Nor does the way back leave a property behind that is undefined: each part of
the text has its `=`.
-/

namespace Vexil.Web

open Vexil.Lib Vexil.Kube

/-- Labels that the API server accepts. -/
def ValidLabels (labels : GoMap String) : Prop :=
  ∀ k v, labels.lookup k = some v → LabelKey k ∧ LabelValue v

theorem isSpace_of_labelChar {c : Char} (h : LabelChar c) :
    Js.isSpace c = false := by
  have hbounds := h.bounds
  simp only [Js.isSpace, decide_eq_false_iff_not]
  omega

/-! ## Text of such characters only -/

section
variable {s : String}

theorem separable_of_chars (h : ∀ c ∈ s.toList, LabelChar c) : Separable s := by
  refine ⟨fun hcomma => ?_, fun hequals => ?_⟩
  · exact absurd (h _ hcomma).bounds (by decide)
  · exact absurd (h _ hequals).bounds (by decide)

theorem flushLeft_of_chars (h : ∀ c ∈ s.toList, LabelChar c) :
    Js.FlushLeft s :=
  fun c hc => isSpace_of_labelChar (h c (List.mem_of_mem_head? hc))

theorem flushRight_of_chars (h : ∀ c ∈ s.toList, LabelChar c) :
    Js.FlushRight s :=
  fun c hc => isSpace_of_labelChar (h c (List.mem_of_getLast? hc))

end

theorem cleanLabel_of_valid {k v : String} (hk : LabelKey k)
    (hv : LabelValue v) : CleanLabel k v where
  key := separable_of_chars hk.chars
  keyFlush := flushLeft_of_chars hk.chars
  value := separable_of_chars hv.chars
  valueFlush := flushRight_of_chars hv.chars

theorem ValidLabels.clean {labels : GoMap String} (h : ValidLabels labels) :
    Clean labels :=
  fun k v hv => cleanLabel_of_valid (h k v hv).1 (h k v hv).2

/-! ## The object that is read -/

section
variable {order : GoMap String → List String} {labels : GoMap String}

/-- A property is undefined only where a part has no `=`. -/
theorem lookup_ne_undefined {text : String}
    (h : ∀ p ∈ pieces text, '=' ∈ p.toList) (k : String) :
    (labelEntries text).lookup k ≠ some none := by
  rw [labelEntries_eq, Js.lookup_fromEntries, List.filter_map,
    List.getLast?_map, Option.map_map]
  intro hnone
  obtain ⟨p, hlast, hentry⟩ := Option.map_eq_some_iff.mp hnone
  have hp := (List.mem_filter.mp (List.mem_of_getLast? hlast)).1
  obtain ⟨k', v', rfl, hk'⟩ := assignment_of_mem (h p hp)
  obtain ⟨part, rest, hsplit⟩ : ∃ part rest, split v' '=' = part :: rest :=
    List.exists_cons_of_ne_nil fun hnil =>
      List.splitOn_ne_nil '=' v'.toList (List.map_eq_nil_iff.mp hnil)
  have hvalue : (split (k' ++ "=" ++ v') '=')[1]? = some part := by
    rw [split_assignment hk', hsplit]
    rfl
  exact absurd (hvalue.symm.trans hentry) (Option.some_ne_none part)

/-- The object has the labels, each with its value. -/
theorem lookup_labelEntries_labelsText (horder : labels.Ranges (order labels))
    (hne : labels ≠ ∅) (hclean : Clean labels) (k : String) :
    (labelEntries (labelsText order labels)).lookup k =
      (labels.lookup k).map some := by
  have hback := (labelsOf_labelsText_iff horder).mpr hclean
  have hpieces := pieces_labelsText
    (fun hnil => hne ((order_eq_nil_iff horder).mp hnil))
    (horder.forall_index hclean.form)
  have hjoin : ((labelEntries (labelsText order labels)).lookup k).join =
      labels.lookup k := by
    rw [← Js.lookup_stringified]
    exact congrArg (fun m => m.lookup k) hback
  have hassigned : ∀ p ∈ pieces (labelsText order labels), '=' ∈ p.toList := by
    intro p hp
    rw [hpieces] at hp
    obtain ⟨k, _, rfl⟩ := List.mem_map.mp hp
    simp [assignment]
  have hdefined := lookup_ne_undefined hassigned k
  cases hentry : (labelEntries (labelsText order labels)).lookup k with
  | none =>
      rw [hentry] at hjoin
      rw [← hjoin]
      rfl
  | some v =>
      rw [hentry] at hjoin hdefined
      cases v with
      | none => exact absurd rfl hdefined
      | some v =>
          rw [← hjoin]
          rfl

/-- Valid labels come back from their text: as the object that is read, and as
what arrives of it. -/
theorem label_text_round_trip (horder : labels.Ranges (order labels))
    (hne : labels ≠ ∅) (hvalid : ValidLabels labels) :
    (∀ k, (labelEntries (labelsText order labels)).lookup k =
      (labels.lookup k).map some) ∧
    labelsOf (labelsText order labels) = labels :=
  ⟨lookup_labelEntries_labelsText horder hne hvalid.clean,
    (labelsOf_labelsText_iff horder).mpr hvalid.clean⟩

end

/-- A key with a domain, and a label without a value. -/
def shopLabels : GoMap String :=
  (GoMap.single "app.kubernetes.io/name" "web-1").insert "canary" ""

theorem shopLabels_valid : ValidLabels shopLabels := by
  intro k v hv
  rw [shopLabels, GoMap.lookup_insert, GoMap.lookup_single] at hv
  split at hv
  · next hk =>
      obtain rfl := Option.some.inj hv
      subst hk
      decide +kernel
  · split at hv
    · next hk =>
        obtain rfl := Option.some.inj hv
        subst hk
        decide +kernel
    · cases hv

def shopOrder (_ : GoMap String) : List String :=
  ["canary", "app.kubernetes.io/name"]

theorem shopLabels_ranges : shopLabels.Ranges (shopOrder shopLabels) := by
  refine ⟨by decide, fun k => ?_⟩
  simp [shopOrder, shopLabels, GoMap.single, Finmap.notMem_empty]

theorem label_text_round_trip_shop :
    labelsText shopOrder shopLabels = "canary=,app.kubernetes.io/name=web-1" ∧
    (labelEntries (labelsText shopOrder shopLabels)).lookup "canary" =
      some (some "") ∧
    labelsOf (labelsText shopOrder shopLabels) = shopLabels := by
  obtain ⟨hobject, harrives⟩ := label_text_round_trip shopLabels_ranges
    (by decide) shopLabels_valid
  exact ⟨by decide +kernel, hobject "canary", harrives⟩

end Vexil.Web
