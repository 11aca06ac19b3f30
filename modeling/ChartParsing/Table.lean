/-!
# Tables

A table holds numbers under keys, under each key in the order in which they were entered there.  What was
never entered has no numbers: `Table.get_enter` says what a look-up answers behind an entry.
-/

namespace ChartParsing

/-- Numbers under keys, in the order in which they were entered. -/
abbrev Table (κ : Type) := List (κ × List Nat)

namespace Table

variable {κ : Type} [DecidableEq κ]

/-- The numbers under a key. -/
def get : Table κ → κ → List Nat
  | [], _ => []
  | (key, numbers) :: rest, k => if key = k then numbers else get rest k

/-- Enters a number under a key. -/
def enter : Table κ → κ → Nat → Table κ
  | [], k, n => [(k, [n])]
  | (key, numbers) :: rest, k, n =>
      if key = k then (key, numbers ++ [n]) :: rest else (key, numbers) :: enter rest k n

theorem get_enter (t : Table κ) (k : κ) (n : Nat) (k' : κ) :
    (t.enter k n).get k' = t.get k' ++ (if k = k' then [n] else []) := by
  induction t with
  | nil =>
      by_cases hk : k = k'
      · simp [enter, get, hk]
      · simp [enter, get, hk]
  | cons entry rest ih =>
      obtain ⟨key, numbers⟩ := entry
      unfold enter
      by_cases hkey : key = k
      · subst hkey
        by_cases hk : key = k'
        · simp [get, hk]
        · simp [get, hk]
      · rw [if_neg hkey]
        unfold get
        by_cases hk : key = k'
        · subst hk
          simp [Ne.symm hkey]
        · rw [if_neg hk, if_neg hk, ih]

end Table

end ChartParsing
