import Vexil.Sdk.Dotnet
import Vexil.Sdk.Node
import Vexil.Sdk.Python

/-!
# The typed getters of four SDKs

A Boolean and an integer have one spelling that every SDK reads alike, and each
SDK has more of its own. Go and .NET give the default for a text they do not
take. Node and Python never do that for a Boolean: what is not one of their
three words is false. So the four agree on a Boolean exactly when Go and .NET
both take the text, and these are six words.

For integers the common spelling is the numeral. Node reads one off the front
of any text, Python takes one in any script and with underscores, .NET one with
white space around it; as Go takes nothing but a numeral, the four agree on any
other text exactly when none of these finds an integer. On numerals they agree
up to the number of digits that the Python interpreter refuses.
-/

namespace Vexil.Sdk

open Vexil.Lib

/-! ## Node's integers -/

theorem node_skip {c : Char} (h : c = '-' ∨ c = '+' ∨ c.isDigit = true) :
    Node.isWhiteSpace c = false := by
  obtain rfl | rfl | h := h
  · decide
  · decide
  · have hbounds := isDigit_bounds h
    simp only [Node.isWhiteSpace, isSpace, decide_eq_false_iff_not,
      decide_eq_true_eq]
    omega

/-- After white space the text begins with a numeral. -/
def LeadingNumeral (s : String) : Prop :=
  ∃ ws rest, s.toList = ws ++ rest ∧ (∀ c ∈ ws, Node.isWhiteSpace c = true) ∧
    LedByNumeral rest

theorem leadingNumeral_iff {s : String} :
    LeadingNumeral s ↔ LedByNumeral (s.toList.dropWhile Node.isWhiteSpace) :=
  (led_dropWhile fun _ => node_skip).symm

theorem node_parseInt_eq_none {s : String} :
    Node.parseInt s = none ↔ ¬LeadingNumeral s := by
  rw [leadingNumeral_iff, LedByNumeral, not_not, Node.parseInt]
  split
  · next h => exact iff_of_true rfl h
  · next h => exact iff_of_false (Option.some_ne_none _) h

theorem node_parseInt_numeral {s : String} (h : Numeral s.toList) :
    Node.parseInt s = some (numeralValue s.toList) := by
  rw [Node.parseInt, h.dropWhile_skip fun _ => node_skip]
  simp only [h.takeWhile]
  rw [if_neg h.1, numeralValue]

/-! ## .NET's integers -/

theorem dotnet_skip {c : Char} (h : c = '-' ∨ c = '+' ∨ c.isDigit = true) :
    Dotnet.isWhite c = false := by
  obtain rfl | rfl | h := h
  · decide
  · decide
  · have hbounds := isDigit_bounds h
    simp only [Dotnet.isWhite, decide_eq_false_iff_not]
    omega

theorem dotnet_intTryParse_numeral {s : String} (h : Numeral s.toList)
    (hfits : Int32Range (numeralValue s.toList)) :
    Dotnet.intTryParse s = some (numeralValue s.toList) := by
  rw [Dotnet.intTryParse, h.dropWhile_skip fun _ => dotnet_skip]
  simp only [h.takeWhile, h.dropWhile, List.dropWhile_nil]
  rw [if_pos ⟨h.1, by simp⟩, ← numeralValue, Option.filter_some_pos]
  exact decide_eq_true hfits

/-- What .NET takes is after white space that Node skips too. -/
theorem dotnet_intTryParse_leading {s : String}
    (h : Dotnet.intTryParse s ≠ none) : LeadingNumeral s := by
  rw [Dotnet.intTryParse] at h
  split at h
  · next hds =>
      have hled : LedByNumeral (s.toList.dropWhile Dotnet.isWhite) := hds.1
      obtain ⟨ws, rest, hs, hws, hrest⟩ :=
        (led_dropWhile fun _ => dotnet_skip).mp hled
      refine ⟨ws, rest, hs, ?_, hrest⟩
      intro c hc
      have hwhite := hws c hc
      simp only [Dotnet.isWhite, decide_eq_true_eq] at hwhite
      simp only [Node.isWhiteSpace, isSpace, decide_eq_true_eq]
      omega
  · exact absurd rfl h

/-! ## Python's integers -/

/-- The digits are not more than the interpreter takes. -/
def Python.Interpreter.Takes (py : Python.Interpreter) (ds : List Char) :
    Prop :=
  py.maxStrDigits = 0 ∨ ds.length ≤ py.maxStrDigits

instance (py : Python.Interpreter) (ds : List Char) : Decidable (py.Takes ds) :=
  inferInstanceAs (Decidable (_ ∨ _))

/-- An integer as Python spells it: white space around an optional sign and
groups of digits with one underscore between. -/
def PythonNumeral (py : Python.Interpreter) (s : String) : Prop :=
  ∃ before sign body after,
    Python.decimalAndSpaceToAscii py s.toList =
      before ++ (sign ++ (body ++ after)) ∧
    (∀ c ∈ before, Python.isSpaceAscii c = true) ∧
    (∀ c ∈ after, Python.isSpaceAscii c = true) ∧
    sign ∈ [[], ['-'], ['+']] ∧
    (∀ c ∈ body, c.isDigit = true ∨ c = '_') ∧
    (∀ g ∈ body.splitOn '_', g ≠ []) ∧ py.Takes (body.filter Char.isDigit)

theorem python_skip {c : Char} (h : c = '-' ∨ c = '+' ∨ c.isDigit = true) :
    Python.isSpaceAscii c = false := by
  obtain rfl | rfl | h := h
  · decide
  · decide
  · have hbounds := isDigit_bounds h
    simp only [Python.isSpaceAscii, decide_eq_false_iff_not]
    omega

theorem not_number_of_space {c : Char} (h : Python.isSpaceAscii c = true) :
    decide (c.isDigit = true ∨ c = '_') = false := by
  rw [decide_eq_false_iff_not]
  rintro (hdigit | rfl)
  · rw [python_skip (.inr (.inr hdigit))] at h
    cases h
  · exact absurd h (by decide)

/-- Digit groups begin with a digit. -/
theorem head_of_groups {body : List Char}
    (hbody : ∀ c ∈ body, c.isDigit = true ∨ c = '_')
    (hgroups : ∀ g ∈ body.splitOn '_', g ≠ []) :
    ∃ c rest, body = c :: rest ∧ c.isDigit = true := by
  cases body with
  | nil => exact absurd rfl (hgroups [] (by simp [List.splitOn_nil]))
  | cons c rest =>
      refine ⟨c, rest, rfl, (hbody c List.mem_cons_self).resolve_right ?_⟩
      rintro rfl
      refine hgroups [] ?_ rfl
      rw [← List.nil_append ('_' :: rest), List.splitOn_append_cons_self]
      simp [List.splitOn_nil]

/-- The scan over digits and underscores stops at the white space. -/
theorem scan_body {body after : List Char}
    (hbody : ∀ c ∈ body, c.isDigit = true ∨ c = '_')
    (hafter : ∀ c ∈ after, Python.isSpaceAscii c = true) :
    ((body ++ after).takeWhile fun c => c.isDigit ∨ c = '_') = body ∧
      ((body ++ after).dropWhile fun c => c.isDigit ∨ c = '_') = after := by
  have hpos : ∀ c ∈ body, decide (c.isDigit = true ∨ c = '_') = true :=
    fun c hc => decide_eq_true (hbody c hc)
  rw [List.takeWhile_append_of_pos hpos, List.dropWhile_append_of_pos hpos]
  cases after with
  | nil => simp
  | cons a rest =>
      have hneg := not_number_of_space (hafter a List.mem_cons_self)
      rw [List.takeWhile_cons, List.dropWhile_cons, hneg]
      simp

theorem python_parseInt_eq_none {py : Python.Interpreter} {s : String} :
    Python.parseInt py s = none ↔ ¬PythonNumeral py s := by
  rw [Python.parseInt]
  constructor
  · rintro hnone ⟨before, sign, body, after, heq, hbefore, hafter, hsign, hbody,
      hgroups, htakes⟩
    obtain ⟨c, rest, hcons, hc⟩ := head_of_groups hbody hgroups
    have hsplit : (splitSign (sign ++ (body ++ after))).2 = body ++ after :=
      splitSign_signed hsign ⟨c, rest ++ after, by rw [hcons]; rfl, hc⟩
    have hled : LedByNumeral (sign ++ (body ++ after)) := by
      rw [LedByNumeral, hsplit, hcons, List.cons_append,
        List.takeWhile_cons_of_pos hc]
      exact List.cons_ne_nil _ _
    obtain ⟨htake, hdrop⟩ := scan_body hbody hafter
    rw [heq, hled.dropWhile_append (fun _ => python_skip) hbefore,
      hsplit] at hnone
    simp only [htake, hdrop] at hnone
    rw [if_pos ⟨hgroups, htakes, List.all_eq_true.mpr hafter⟩] at hnone
    cases hnone
  · intro hnot
    rw [if_neg]
    rintro ⟨hgroups, htakes, hafter⟩
    obtain ⟨sign, hsign, heq⟩ := splitSign_append
      ((Python.decimalAndSpaceToAscii py s.toList).dropWhile
        Python.isSpaceAscii)
    refine hnot ⟨(Python.decimalAndSpaceToAscii py s.toList).takeWhile
      Python.isSpaceAscii, sign, _, _, ?_, fun c => List.mem_takeWhile_imp,
      List.all_eq_true.mp hafter, hsign, ?_, hgroups, htakes⟩
    · rw [List.takeWhile_append_dropWhile, ← heq,
        List.takeWhile_append_dropWhile]
    · intro c hc
      simpa using List.mem_takeWhile_imp hc

theorem python_parseInt_numeral {py : Python.Interpreter} {s : String}
    (h : Numeral s.toList) :
    Python.parseInt py s = if py.Takes (splitSign s.toList).2 then
      some (numeralValue s.toList) else none := by
  have hascii : Python.decimalAndSpaceToAscii py s.toList = s.toList := by
    rw [Python.decimalAndSpaceToAscii, if_pos]
    exact List.all_eq_true.mpr fun c hc => decide_eq_true (h.ascii c hc)
  have hbody : ∀ c ∈ (splitSign s.toList).2, c.isDigit = true ∨ c = '_' :=
    fun c hc => .inl (h.2 c hc)
  have hafter : ∀ c ∈ ([] : List Char), Python.isSpaceAscii c = true := by
    intro c hc
    cases hc
  have hscan := scan_body hbody hafter
  rw [List.append_nil] at hscan
  have hsingle : (splitSign s.toList).2.splitOn '_' =
      [(splitSign s.toList).2] :=
    List.splitOn_eq_singleton fun hmem => absurd (h.2 '_' hmem) (by decide)
  have hfilter : (splitSign s.toList).2.filter Char.isDigit =
      (splitSign s.toList).2 := List.filter_eq_self.mpr h.2
  rw [Python.parseInt, hascii, h.dropWhile_skip fun _ => python_skip]
  simp only [hscan.1, hscan.2, hsingle, hfilter]
  refine if_congr ⟨fun hall => hall.2.1, fun htakes => ⟨?_, htakes, by simp⟩⟩
    rfl rfl
  simpa using h.1

/-! ## Four clients -/

/-- A client of each SDK; the Python one runs in an interpreter. -/
structure Clients where
  go : Client
  node : Node.Client
  python : Python.Client
  py : Python.Interpreter
  dotnet : Dotnet.VexilClient

namespace Clients

variable (c : Clients) (name v : String)

/-- Every provider finds an enabled flag with the value `v`. -/
structure Find : Prop where
  go : ∃ f, c.go.provider name = .ok f ∧ f.disabled = false ∧ f.value = v
  node : ∃ f, c.node.provider name = some f ∧ f.disabled = false ∧ f.value = v
  python : ∃ f, c.python.provider name = some f ∧ f.disabled = false ∧
    f.value = v
  dotnet : ∃ f, c.dotnet.provider name = some f ∧ f.disabled = false ∧
    f.value = v

/-- What the four `Bool` getters return. -/
def bools (d : Bool) : List Bool :=
  [c.go.bool name d, c.node.bool name d, c.python.bool name d,
    c.dotnet.bool name d]

/-- What the four `Int` getters return. -/
def ints (d : Int) : List Int :=
  [c.go.int name d, c.node.int name d, c.python.int c.py name d,
    c.dotnet.int name d]

/-- The `Bool` getters return the same, and the default just for a text that is
no literal. -/
structure BoolsAgree : Prop where
  same : ∀ d, ∀ a ∈ c.bools name d, ∀ b ∈ c.bools name d, a = b
  default : (∀ d, ∀ a ∈ c.bools name d, a = d) ↔ parseBool v = none

/-- The same of the `Int` getters, for defaults that .NET has too. -/
structure IntsAgree : Prop where
  same : ∀ d, Int32Range d → ∀ a ∈ c.ints name d, ∀ b ∈ c.ints name d, a = b
  default : (∀ d, Int32Range d → ∀ a ∈ c.ints name d, a = d) ↔
    ¬Numeral v.toList

end Clients

/-- The words for a Boolean that every SDK reads. -/
def commonBools : List String :=
  ["true", "True", "TRUE", "false", "False", "FALSE"]

/-- If the text is a numeral, its integer is one of 32 bits. -/
def Fits32 (v : String) : Prop :=
  Numeral v.toList → Int32Range (numeralValue v.toList)

/-- A numeral that Python takes or that is out of range, or a text in which
neither Node nor Python finds an integer. -/
def CommonInt (py : Python.Interpreter) (v : String) : Prop :=
  if Numeral v.toList then
    py.Takes (splitSign v.toList).2 ∨ ¬Int32Range (numeralValue v.toList)
  else ¬LeadingNumeral v ∧ ¬PythonNumeral py v

section

variable {c : Clients} {name v : String}

theorem Clients.Find.bools (h : c.Find name v) (d : Bool) :
    c.bools name d = [(parseBool v).getD d,
      decide (toLower v ∈ ["true", "1", "yes"]),
      decide (toLower v ∈ ["true", "1", "yes"]),
      (Dotnet.boolTryParse v).getD d] := by
  obtain ⟨⟨f, hf, hfon, hfv⟩, ⟨g, hg, hgon, hgv⟩, ⟨p, hp, hpon, hpv⟩,
    ⟨n, hn, hnon, hnv⟩⟩ := h
  simp [Clients.bools, Client.bool, Node.Client.bool, Python.Client.bool,
    Dotnet.VexilClient.bool, hf, hg, hp, hn, hfon, hgon, hpon, hnon, hfv, hgv,
    hpv, hnv]

theorem Clients.Find.ints (h : c.Find name v) (d : Int) :
    c.ints name d = [(atoi v).getD d, (Node.parseInt v).getD d,
      (Python.parseInt c.py v).getD d, (Dotnet.intTryParse v).getD d] := by
  obtain ⟨⟨f, hf, hfon, hfv⟩, ⟨g, hg, hgon, hgv⟩, ⟨p, hp, hpon, hpv⟩,
    ⟨n, hn, hnon, hnv⟩⟩ := h
  simp [Clients.ints, Client.int, Node.Client.int, Python.Client.int,
    Dotnet.VexilClient.int, hf, hg, hp, hn, hfon, hgon, hpon, hnon, hfv, hgv,
    hpv, hnv]

/-! ## Booleans -/

theorem parseBool_words {v : String} (h : parseBool v ≠ none) :
    v ∈ ["1", "t", "T", "TRUE", "true", "True"] ∨
      v ∈ ["0", "f", "F", "FALSE", "false", "False"] := by
  rw [parseBool] at h
  split at h
  · next htrue => exact .inl htrue
  · split at h
    · next hfalse => exact .inr hfalse
    · exact absurd rfl h

theorem commonBools_of_taken {v : String} (hgo : parseBool v ≠ none)
    (hdotnet : Dotnet.boolTryParse v ≠ none) : v ∈ commonBools := by
  have hwords : ∀ w ∈ ["1", "t", "T", "TRUE", "true", "True"] ++
      ["0", "f", "F", "FALSE", "false", "False"],
      Dotnet.boolTryParse w = none ∨ w ∈ commonBools := by decide
  exact (hwords v (List.mem_append.mpr (parseBool_words hgo))).resolve_left
    hdotnet

theorem commonBools_read {v : String} (h : v ∈ commonBools) :
    ∃ b, parseBool v = some b ∧
      decide (toLower v ∈ ["true", "1", "yes"]) = b ∧
      Dotnet.boolTryParse v = some b := by
  have hall : ∀ w ∈ commonBools, ∃ b, parseBool w = some b ∧
      decide (toLower w ∈ ["true", "1", "yes"]) = b ∧
      Dotnet.boolTryParse w = some b := by decide
  exact hall v h

theorem boolsAgree_iff (h : c.Find name v) :
    c.BoolsAgree name v ↔ v ∈ commonBools := by
  constructor
  · rintro ⟨hsame, _⟩
    -- Node's answer is the same for both defaults, so nobody gives the default
    have hparsed : ∀ o : Option Bool, (∀ d, o.getD d =
        decide (toLower v ∈ ["true", "1", "yes"])) → o ≠ none := by
      rintro o ho rfl
      have hboth : (true : Bool) = false := (ho true).trans (ho false).symm
      cases hboth
    simp only [h.bools] at hsame
    refine commonBools_of_taken (hparsed _ fun d => ?_) (hparsed _ fun d => ?_)
    · exact hsame d _ (by simp) _ (by simp)
    · exact hsame d _ (by simp) _ (by simp)
  · intro hv
    obtain ⟨b, hgo, hnode, hdotnet⟩ := commonBools_read hv
    have hbools : ∀ d, c.bools name d = [b, b, b, b] := by
      intro d
      rw [h.bools, hgo, hnode, hdotnet]
      rfl
    refine ⟨fun d a ha b' hb' => ?_, ?_⟩
    · rw [hbools] at ha hb'
      simp at ha hb'
      rw [ha, hb']
    · rw [hgo]
      refine iff_of_false (fun hd => ?_) nofun
      have hnot := hd (!b) b (by rw [hbools]; simp)
      cases b <;> cases hnot

/-! ## Integers -/

theorem exists_ne_int32 (n : Int) : ∃ d, Int32Range d ∧ d ≠ n := by
  by_cases hn : n = 0
  · exact ⟨1, by decide, by omega⟩
  · exact ⟨0, by decide, fun h => hn h.symm⟩

/-- A result that is the default for every default was not read. -/
theorem eq_none_of_default {o : Option Int}
    (h : ∀ d, Int32Range d → o.getD d = d) : o = none := by
  cases o with
  | none => rfl
  | some n =>
      obtain ⟨d, hd, hne⟩ := exists_ne_int32 n
      exact absurd (h d hd).symm hne

theorem atoi_numeral (hnum : Numeral v.toList)
    (hfits : Int32Range (numeralValue v.toList)) :
    atoi v = some (numeralValue v.toList) := by
  rw [atoi_eq, if_pos hnum, Option.filter_some_pos]
  have h64 : -(2 ^ 63) ≤ numeralValue v.toList ∧
      numeralValue v.toList < 2 ^ 63 := by
    obtain ⟨hlo, hhi⟩ := hfits
    omega
  exact decide_eq_true h64

/-- A numeral of 32 bits: three SDKs read it, and Python if it takes that many
digits. -/
theorem intsAgree_of_numeral (h : c.Find name v) (hnum : Numeral v.toList)
    (hfits : Int32Range (numeralValue v.toList)) :
    c.IntsAgree name v ↔ c.py.Takes (splitSign v.toList).2 := by
  have hints := h.ints
  simp only [atoi_numeral hnum hfits, node_parseInt_numeral hnum,
    python_parseInt_numeral hnum, dotnet_intTryParse_numeral hnum hfits,
    Option.getD_some] at hints
  obtain ⟨d, hd, hne⟩ := exists_ne_int32 (numeralValue v.toList)
  constructor
  · intro hagree
    by_contra hnot
    have hsame := hagree.same d hd
    rw [hints, if_neg hnot] at hsame
    exact hne (hsame _ (by simp) _ (by simp))
  · intro htakes
    simp only [if_pos htakes, Option.getD_some] at hints
    refine ⟨fun d _ a ha b hb => ?_, iff_of_false (fun hall => ?_) ?_⟩
    · rw [hints] at ha hb
      simp at ha hb
      rw [ha, hb]
    · exact hne (hall d hd _ (by rw [hints]; simp)).symm
    · exact fun hnot => hnot hnum

/-- On any other text Go gives the default, and so must the others. -/
theorem intsAgree_of_not_numeral (h : c.Find name v)
    (hnum : ¬Numeral v.toList) :
    c.IntsAgree name v ↔ ¬LeadingNumeral v ∧ ¬PythonNumeral c.py v := by
  have hints := h.ints
  have hgo : atoi v = none := by rw [atoi_eq, if_neg hnum]
  simp only [hgo, Option.getD_none] at hints
  constructor
  · rintro ⟨hsame, _⟩
    simp only [hints] at hsame
    rw [← node_parseInt_eq_none, ← python_parseInt_eq_none]
    constructor
    · exact eq_none_of_default fun d hd => hsame d hd _ (by simp) _ (by simp)
    · exact eq_none_of_default fun d hd => hsame d hd _ (by simp) _ (by simp)
  · rintro ⟨hnode, hpython⟩
    have hdotnet : Dotnet.intTryParse v = none := by
      by_contra hsome
      exact hnode (dotnet_intTryParse_leading hsome)
    simp only [node_parseInt_eq_none.mpr hnode,
      python_parseInt_eq_none.mpr hpython, hdotnet, Option.getD_none] at hints
    have hall : ∀ d, ∀ a ∈ c.ints name d, a = d := by
      intro d a ha
      rw [hints] at ha
      simpa using ha
    refine ⟨fun d _ a ha b hb => ?_, iff_of_true (fun d _ => hall d) hnum⟩
    rw [hall d a ha, hall d b hb]

theorem intsAgree_iff (h : c.Find name v) :
    (Fits32 v → c.IntsAgree name v) ↔ CommonInt c.py v := by
  rw [CommonInt]
  split
  · next hnum =>
      by_cases hfits : Int32Range (numeralValue v.toList)
      · rw [← intsAgree_of_numeral h hnum hfits]
        refine ⟨fun hagree => .inl (hagree fun _ => hfits), fun hor _ => ?_⟩
        exact hor.resolve_right fun hnot => hnot hfits
      · exact iff_of_true (fun hall => absurd (hall hnum) hfits) (.inr hfits)
  · next hnum =>
      rw [← intsAgree_of_not_numeral h hnum]
      exact ⟨fun hagree => hagree fun hyes => absurd hyes hnum,
        fun hagree _ => hagree⟩

/-- Of a flag that all four clients find, the `Bool` getters agree on its value
exactly when it is one of six words, and the `Int` getters on numerals that
Python takes and on texts that no SDK reads an integer from. -/
theorem typed_getters_agree_iff (h : c.Find name v) :
    (c.BoolsAgree name v ↔ v ∈ commonBools) ∧
      ((Fits32 v → c.IntsAgree name v) ↔ CommonInt c.py v) :=
  ⟨boolsAgree_iff h, intsAgree_iff h⟩

end

/-- Clients in one process; Python has its usual limit on digits. -/
def envClients (env : GoMap String) : Clients where
  go := ⟨envProvider env⟩
  node := ⟨Node.getEnv env⟩
  python := ⟨Python.getEnv env⟩
  py := { decimal := fun _ => none, maxStrDigits := 4300 }
  dotnet := ⟨Dotnet.envProvider env⟩

def plainEnv : GoMap String :=
  (GoMap.single "FLAG_DARK_MODE" "TRUE").insert "FLAG_RATE_LIMIT" "-12"

theorem typed_getters_agree_iff_sample :
    (envClients plainEnv).BoolsAgree "dark-mode" "TRUE" ∧
      (envClients plainEnv).IntsAgree "rate-limit" "-12" := by
  constructor
  · have hfind : (envClients plainEnv).Find "dark-mode" "TRUE" :=
      ⟨⟨_, rfl, rfl, rfl⟩, ⟨_, rfl, rfl, rfl⟩, ⟨_, rfl, rfl, rfl⟩,
        ⟨_, rfl, rfl, rfl⟩⟩
    exact (typed_getters_agree_iff hfind).1.mpr (by decide)
  · have hfind : (envClients plainEnv).Find "rate-limit" "-12" :=
      ⟨⟨_, rfl, rfl, rfl⟩, ⟨_, rfl, rfl, rfl⟩, ⟨_, rfl, rfl, rfl⟩,
        ⟨_, rfl, rfl, rfl⟩⟩
    have hcommon : CommonInt (envClients plainEnv).py "-12" := by
      rw [CommonInt, if_pos (by decide)]
      exact .inl (by decide)
    exact (typed_getters_agree_iff hfind).2.mpr hcommon fun _ => by decide

/-- Values that some SDKs take more leniently than others. -/
def lenientEnv : GoMap String :=
  (GoMap.single "FLAG_DARK_MODE" "on").insert "FLAG_RATE_LIMIT" "1_000"

theorem lenientEnv_find : (envClients lenientEnv).Find "dark-mode" "on" ∧
    (envClients lenientEnv).Find "rate-limit" "1_000" :=
  ⟨⟨⟨_, rfl, rfl, rfl⟩, ⟨_, rfl, rfl, rfl⟩, ⟨_, rfl, rfl, rfl⟩,
      ⟨_, rfl, rfl, rfl⟩⟩,
    ⟨⟨_, rfl, rfl, rfl⟩, ⟨_, rfl, rfl, rfl⟩, ⟨_, rfl, rfl, rfl⟩,
      ⟨_, rfl, rfl, rfl⟩⟩⟩

/-- A switch that is `on` is off in Node and Python, and a limit of `1_000` is
1000 in Python, 1 in Node and the default elsewhere. -/
theorem typed_getters_disagree :
    (envClients lenientEnv).Find "dark-mode" "on" ∧
      (envClients lenientEnv).bools "dark-mode" true =
        [true, false, false, true] ∧
      ¬(envClients lenientEnv).BoolsAgree "dark-mode" "on" ∧
      (envClients lenientEnv).Find "rate-limit" "1_000" ∧
      (envClients lenientEnv).ints "rate-limit" 100 = [100, 1, 1000, 100] ∧
      Fits32 "1_000" ∧
      ¬(envClients lenientEnv).IntsAgree "rate-limit" "1_000" := by
  have hbools : (envClients lenientEnv).bools "dark-mode" true =
      [true, false, false, true] := by decide
  have hints : (envClients lenientEnv).ints "rate-limit" 100 =
      [100, 1, 1000, 100] := by decide
  refine ⟨lenientEnv_find.1, hbools, ?_, lenientEnv_find.2, hints,
    fun hnum => absurd hnum (by decide), ?_⟩
  · intro hagree
    have hsame := hagree.same true
    rw [hbools] at hsame
    exact absurd (hsame true (by simp) false (by simp)) (by decide)
  · intro hagree
    have hsame := hagree.same 100 (by decide)
    rw [hints] at hsame
    exact absurd (hsame 100 (by simp) 1 (by simp)) (by decide)

end Vexil.Sdk
