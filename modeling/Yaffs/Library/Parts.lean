import Mathlib.Data.List.Basic
import Mathlib.Data.List.TakeWhile

/-!
# Parts of a list

The parts of a list are what lies between its separators, empty parts left out.
-/

namespace Parts

variable {α : Type*} (sep : α → Bool)

/-- What lies between the separators of a list, empty parts left out. -/
def parts (list : List α) : List (List α) :=
  (list.splitOnP sep).filter fun part => !part.isEmpty

variable {sep}

@[simp]
theorem parts_nil : parts sep [] = [] := rfl

theorem parts_cons_sep {divider : α} (divides : sep divider = true) (rest : List α) :
    parts sep (divider :: rest) = parts sep rest := by
  have split : (([] : List α) ++ divider :: rest).splitOnP sep = [] :: rest.splitOnP sep :=
    List.splitOnP_append_cons_of_forall_mem nofun divider divides rest
  rw [List.nil_append] at split
  simp [parts, split]

/-- Separators in front do not matter. -/
theorem parts_append_seps {seps : List α} (all : ∀ divider ∈ seps, sep divider = true)
    (rest : List α) : parts sep (seps ++ rest) = parts sep rest := by
  induction seps with
  | nil => rfl
  | cons divider seps ih =>
    rw [List.cons_append, parts_cons_sep (all divider List.mem_cons_self)]
    exact ih fun other mem => all other (List.mem_cons_of_mem _ mem)

@[simp]
theorem parts_dropWhile_sep (list : List α) : parts sep (list.dropWhile sep) = parts sep list := by
  conv_rhs => rw [← List.takeWhile_append_dropWhile (p := sep) (l := list)]
  exact (parts_append_seps (fun _ mem => List.mem_takeWhile_imp mem) _).symm

/-- A text in front of a separator, or of the end, is the first part. -/
theorem parts_append_text {text : List α} (some_text : text ≠ [])
    (plain : ∀ ch ∈ text, sep ch = false) {rest : List α}
    (ends : ∀ ch ∈ rest.head?, sep ch = true) :
    parts sep (text ++ rest) = text :: parts sep rest := by
  cases rest with
  | nil => simp [parts, List.splitOnP_eq_singleton (p := sep) plain, some_text]
  | cons divider rest =>
    have divides : sep divider = true := ends divider rfl
    rw [parts_cons_sep divides]
    simp [parts, List.splitOnP_append_cons_of_forall_mem (p := sep) plain divider
      divides, some_text]

/-- The first part of a list that begins with text. -/
theorem parts_of_text {list : List α} (some_text : list.takeWhile (fun ch => !sep ch) ≠ []) :
    parts sep list = list.takeWhile (fun ch => !sep ch) ::
      parts sep (list.dropWhile fun ch => !sep ch) := by
  conv_lhs => rw [← List.takeWhile_append_dropWhile (p := fun ch => !sep ch) (l := list)]
  refine parts_append_text some_text (fun ch mem => ?_) fun ch mem => ?_
  · simpa using List.mem_takeWhile_imp mem
  · have stop := List.head?_dropWhile_not (fun ch => !sep ch) list
    rw [mem] at stop
    simpa using stop

end Parts
