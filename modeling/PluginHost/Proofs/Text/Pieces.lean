import Mathlib.Data.List.Basic
import Mathlib.Data.List.TakeDrop
import PluginHost.Text.Pieces

/-! # Pieces and runs of a text

Cutting a text at a separator is splitting a list there: no piece holds the separator, and joining
pieces without it is undone. Replacing single characters keeps all others in their places. A scanner
that takes characters of one kind takes those that stand there, up to the first one of another
kind. -/

namespace PluginHost.Text

variable {separator : Char} {cs : List Char}

theorem pieces_eq_splitOn (separator : Char) (cs : List Char) :
    pieces separator cs = cs.splitOn separator := by
  induction cs with
  | nil => rfl
  | cons c cs ih =>
      rw [pieces, List.splitOn_cons_eq_if_modifyHead, ih]
      by_cases h : c = separator
      · simp [h]
      · rw [if_neg h, if_neg (by simpa using h)]
        obtain ⟨piece, rest, hcons⟩ :=
          List.exists_cons_of_ne_nil (List.splitOn_ne_nil separator cs)
        simp [hcons]

theorem pieces_of_not_mem (h : separator ∉ cs) : pieces separator cs = [cs] := by
  rw [pieces_eq_splitOn, List.splitOn_eq_singleton h]

theorem pieces_append (h : separator ∉ cs) (rest : List Char) :
    pieces separator (cs ++ separator :: rest) = cs :: pieces separator rest := by
  rw [pieces_eq_splitOn, pieces_eq_splitOn, List.splitOn_append_cons_self_of_not_mem h]

theorem pieces_intercalate {texts : List (List Char)} (hne : texts ≠ [])
    (h : ∀ cs ∈ texts, separator ∉ cs) :
    pieces separator ([separator].intercalate texts) = texts := by
  rw [pieces_eq_splitOn, List.splitOn_intercalate separator h hne]

theorem not_mem_of_mem_pieces {piece : List Char} (h : piece ∈ pieces separator cs) :
    separator ∉ piece := by
  induction cs generalizing piece with
  | nil => simp [List.mem_singleton.mp h]
  | cons c cs ih =>
      rw [pieces] at h
      split at h
      next =>
        rcases List.mem_cons.mp h with rfl | h
        · exact List.not_mem_nil
        · exact ih h
      next hc =>
        split at h
        next => simpa [List.mem_singleton.mp h] using Ne.symm hc
        next first rest hpieces =>
          rw [hpieces] at ih
          rcases List.mem_cons.mp h with rfl | h
          · simp [Ne.symm hc, ih (List.mem_cons_self ..)]
          · exact ih (List.mem_cons_of_mem _ h)

/-! ## Replacing -/

/-- Replacing a character by a character goes through a text one by one. -/
theorem replaceFrom_singleton (c d : Char) (cs : List Char) :
    replaceFrom [c] [d] 0 cs = cs.map fun x => if x = c then d else x := by
  induction cs with
  | nil => rfl
  | cons x xs ih =>
      rw [replaceFrom, List.map_cons, ← ih]
      by_cases h : x = c
      · simp [h]
      · simp [h, Ne.symm h]

/-! ## Runs -/

variable {p : Char → Bool} {run rest : List Char}

/-- A text does not begin with a character of a kind. -/
def BeginsWithout (p : Char → Bool) (rest : List Char) : Prop :=
  ∀ c ∈ rest.head?, p c = false

theorem BeginsWithout.takeWhile (h : BeginsWithout p rest) : rest.takeWhile p = [] := by
  cases rest with
  | nil => rfl
  | cons c cs => simp [h c rfl]

theorem BeginsWithout.dropWhile (h : BeginsWithout p rest) : rest.dropWhile p = rest := by
  cases rest with
  | nil => rfl
  | cons c cs => simp [h c rfl]

theorem takeWhile_append (hrun : ∀ c ∈ run, p c = true) (hrest : BeginsWithout p rest) :
    (run ++ rest).takeWhile p = run := by
  rw [List.takeWhile_append_of_pos hrun, hrest.takeWhile, List.append_nil]

theorem dropWhile_append (hrun : ∀ c ∈ run, p c = true) (hrest : BeginsWithout p rest) :
    (run ++ rest).dropWhile p = rest := by
  rw [List.dropWhile_append_of_pos hrun, hrest.dropWhile]

theorem span_append (hrun : ∀ c ∈ run, p c = true) (hrest : BeginsWithout p rest) :
    (run ++ rest).span p = (run, rest) := by
  rw [List.span_eq_takeWhile_dropWhile, takeWhile_append hrun hrest, dropWhile_append hrun hrest]

end PluginHost.Text
