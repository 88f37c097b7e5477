import Mathlib.Data.List.Basic

/-!
# Reading lines with a bound

`bufio.Scanner` with its default buffer and `ScanLines`, over text. A line is
what stands before a newline, without one carriage return at its end; after the
last newline it is what is left, if anything is. The buffer is 64 KiB, and when
it is full and holds no newline the scanner stops: that line and everything
after it is lost.

`scanLines_lines` is what a writer of whole lines needs to know. The lines come
out as they were written up to the first that does not fit, and none after it.
-/

namespace Vexil.Lib

/-- The number of bytes of a text in UTF-8. -/
def byteSize : List Char → Nat
  | [] => 0
  | c :: cs => c.utf8Size + byteSize cs

@[simp] theorem byteSize_nil : byteSize [] = 0 := rfl

@[simp] theorem byteSize_cons (c : Char) (cs : List Char) :
    byteSize (c :: cs) = c.utf8Size + byteSize cs := rfl

@[simp] theorem byteSize_append (cs ds : List Char) :
    byteSize (cs ++ ds) = byteSize cs + byteSize ds := by
  induction cs with
  | nil => rw [List.nil_append, byteSize_nil, Nat.zero_add]
  | cons c cs ih =>
      rw [List.cons_append, byteSize_cons, byteSize_cons, ih, Nat.add_assoc]

theorem length_le_byteSize (cs : List Char) : cs.length ≤ byteSize cs := by
  induction cs with
  | nil => exact Nat.le_refl 0
  | cons c cs ih =>
      have hpos := c.utf8Size_pos
      rw [List.length_cons, byteSize_cons]
      omega

/-- `bufio.MaxScanTokenSize`. -/
def maxTokenSize : Nat := 64 * 1024

/-- Drop a carriage return at the end. -/
def dropCR (line : List Char) : List Char :=
  if line.getLast? = some '\r' then line.dropLast else line

/-- The lines still to come, after a part of the current one has been read. -/
def scanFrom (line : List Char) : List Char → List (List Char)
  | [] => if line = [] then [] else [dropCR line]
  | c :: rest =>
      if c = '\n' then dropCR line :: scanFrom [] rest
      else if byteSize (line ++ [c]) < maxTokenSize then
        scanFrom (line ++ [c]) rest
      else []

def scanLines (text : List Char) : List (List Char) := scanFrom [] text

/-- A text that can be a line: no newline, no carriage return at its end. -/
structure IsLine (line : List Char) : Prop where
  no_newline : '\n' ∉ line
  no_return : line.getLast? ≠ some '\r'

theorem scanFrom_line {line : List Char} {rest : List Char} :
    ∀ {read : List Char}, byteSize read < maxTokenSize →
      IsLine (read ++ line) →
      scanFrom read (line ++ '\n' :: rest) =
        if byteSize (read ++ line) < maxTokenSize then
          (read ++ line) :: scanLines rest
        else [] := by
  induction line with
  | nil =>
      intro read hread hline
      rw [List.append_nil] at hline ⊢
      rw [List.nil_append, scanFrom, if_pos rfl, if_pos hread, dropCR,
        if_neg hline.no_return]
      rfl
  | cons c line ih =>
      intro read hread hline
      have hc : c ≠ '\n' := by
        rintro rfl
        exact hline.no_newline (by simp)
      have hmove : read ++ c :: line = read ++ [c] ++ line :=
        List.append_cons read c line
      rw [hmove] at hline ⊢
      rw [List.cons_append, scanFrom, if_neg hc]
      split
      · next hlt => exact ih hlt hline
      · next hge =>
          have hlong : ¬ byteSize (read ++ [c] ++ line) < maxTokenSize := by
            rw [byteSize_append]
            omega
          rw [if_neg hlong]

/-- One line, and the rest of the text if it fits. -/
theorem scanLines_cons {line rest : List Char} (hline : IsLine line) :
    scanLines (line ++ '\n' :: rest) =
      if byteSize line < maxTokenSize then line :: scanLines rest else [] :=
  scanFrom_line (by decide : byteSize [] < maxTokenSize) hline

/-- Whole lines come out until one does not fit. -/
theorem scanLines_lines {lines : List (List Char)}
    (hlines : ∀ line ∈ lines, IsLine line) :
    scanLines (lines.flatMap fun line => line ++ ['\n']) =
      lines.takeWhile fun line => byteSize line < maxTokenSize := by
  induction lines with
  | nil => rfl
  | cons line lines ih =>
      obtain ⟨hline, hrest⟩ := List.forall_mem_cons.mp hlines
      rw [List.flatMap_cons, List.append_assoc, List.singleton_append,
        scanLines_cons hline, List.takeWhile_cons, ih hrest]
      by_cases hlt : byteSize line < maxTokenSize
      · simp [hlt]
      · simp [hlt]

end Vexil.Lib
