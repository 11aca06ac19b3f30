import ChartParsing.Proofs.Chart.Operations
import ChartParsing.Proofs.Chart.Preference

/-!
# Representatives of derivations

Of the derivations of an edge those are left out that are outranked, and those without a place for which
another one stands.  What stands for a derivation may be left out itself: where both sides have no place,
one derivation stands in on the side of the open edge, and another one for that on the other side.  There is
no third one, so something is always kept: `kept_of_standsFor`, `exists_kept`.

Main statement: **`derivations_represent`**.
-/

namespace ChartParsing

namespace Chart

variable {rules : Array Rule} {c : Chart rules} {n : Nat} {d k other : Derivation}
  {ds : List Derivation} {e : Edge rules}

/-! ### What is left out, and for what -/

/-- Another derivation takes a finished edge of greater priority. -/
def Outranked (c : Chart rules) (ds : List Derivation) (d : Derivation) : Prop :=
  ∃ p, c.childPriority? d = some p ∧ ∃ d' ∈ ds, ∃ q, c.childPriority? d' = some q ∧ p < q

/-- One edge, or two of one rule, or no edge on either side. -/
def Alike (c : Chart rules) (a b : Option Nat) : Prop := a = b ∨ c.sameRule a b = true

/-- The first derivation is between edges of the same rules as the second one, and one of them has a place
where that of the second one has none. -/
structure Replaces (c : Chart rules) (k d : Derivation) : Prop where
  base : c.Alike k.base d.base
  child : c.Alike k.child d.child
  anchored : c.isFloating d.base = true ∧ c.isAnchored k.base = true ∨
    c.isFloating d.child = true ∧ c.isAnchored k.child = true

/-- Some derivations are what is to be kept of all of them. -/
structure Represents (c : Chart rules) (ds kept : List Derivation) : Prop where
  /-- Something is kept. -/
  nonempty : kept ≠ []
  /-- Nothing is kept more often than it is there. -/
  selected : kept.Subperm ds
  /-- First comes what has the greatest priority, then what has none, each part in the order of all. -/
  ordered : ∃ first rest, kept = first ++ rest ∧ first.Sublist ds ∧ rest.Sublist ds ∧
    (∀ d ∈ first, (∃ p, c.childPriority? d = some p) ∧ ¬ c.Outranked ds d) ∧
      ∀ d ∈ rest, c.childPriority? d = none
  /-- What is left out is outranked, or something is kept in its place. -/
  dropped : ∀ d ∈ ds, d ∉ kept → c.Outranked ds d ∨ ∃ k ∈ kept, c.Replaces k d

theorem mem_preferred_iff_not_outranked :
    d ∈ preferred c.childPriority? ds ↔ d ∈ ds ∧ ¬ c.Outranked ds d := by
  rw [mem_preferred]
  refine and_congr_right (fun _ => ?_)
  constructor
  · rintro hmax ⟨p, hp, d', hd', q, hq, hlt⟩
    exact absurd (hmax p hp d' hd' q hq) (by omega)
  · intro hno p hp d' hd' q hq
    by_contra hlt
    exact hno ⟨p, hp, d', hd', q, hq, by omega⟩

theorem isFloating_of_isAnchored {a : Option Nat} (h : c.isAnchored a = true) :
    c.isFloating a = false := by
  unfold isAnchored at h
  unfold isFloating
  cases hi : a.bind c.item? with
  | none => rfl
  | some i => simpa [hi] using h

/-! ### Something is kept -/

/-- Nothing stands for what stands for a derivation whose open edge has a place. -/
theorem kept_of_standsFor (he : c.edge? n = some e)
    (hother : other ∈ preferred c.childPriority? e.derivations) (hb : c.isFloating d.base = false)
    (hs : c.standsFor other d = true) : other ∈ c.derivations n ∧ c.Replaces other d := by
  rcases standsFor_cases hs with ⟨hf, -⟩ | ⟨-, hf, ha, hrule, hbase⟩
  · rw [hb] at hf
    simp at hf
  · refine ⟨mem_derivations.2 ⟨e, he, hother, fun x _ => ?_⟩, .inl hbase, .inr hrule, .inr ⟨hf, ha⟩⟩
    exact standsFor_eq_false (hbase ▸ hb) (isFloating_of_isAnchored ha)

/-- **A preferred derivation is kept, or one in its place.** -/
theorem exists_kept (he : c.edge? n = some e)
    (hd : d ∈ preferred c.childPriority? e.derivations) :
    d ∈ c.derivations n ∨ ∃ k ∈ c.derivations n, c.Replaces k d := by
  -- whatever is not kept has something that stands for it
  have hstands {x : Derivation} (hx : x ∈ preferred c.childPriority? e.derivations)
      (hno : x ∉ c.derivations n) :
      ∃ y ∈ preferred c.childPriority? e.derivations, c.standsFor y x = true := by
    by_contra hnone
    refine hno (mem_derivations.2 ⟨e, he, hx, fun y hy => ?_⟩)
    by_contra hyx
    exact hnone ⟨y, hy, by simpa using hyx⟩
  by_cases hkept : d ∈ c.derivations n
  · exact .inl hkept
  refine .inr ?_
  obtain ⟨other, hother, hs⟩ := hstands hd hkept
  rcases standsFor_cases hs with ⟨hf, ha, hrule, hchild⟩ | ⟨hb, -⟩
  · have hplace := isFloating_of_isAnchored ha
    by_cases hkept' : other ∈ c.derivations n
    · exact ⟨other, hkept', .inr hrule, .inl hchild, .inl ⟨hf, ha⟩⟩
    -- the second one has the same open edge, and its finished edge has a place
    obtain ⟨third, hthird, hs'⟩ := hstands hother hkept'
    obtain ⟨hkept'', hreplaces⟩ := kept_of_standsFor he hthird hplace hs'
    rcases standsFor_cases hs' with ⟨hf', -⟩ | ⟨-, -, -, -, hbase⟩
    · rw [hplace] at hf'
      simp at hf'
    · refine ⟨third, hkept'', .inr (hbase ▸ hrule), hchild ▸ hreplaces.child, .inl ⟨hf, ?_⟩⟩
      rw [hbase]
      exact ha
  · obtain ⟨hkept', hreplaces⟩ := kept_of_standsFor he hother hb hs
    exact ⟨other, hkept', hreplaces⟩

theorem derivations_ne_nil (he : c.edge? n = some e) (hne : e.derivations ≠ []) :
    c.derivations n ≠ [] := by
  obtain ⟨d, hd⟩ := List.exists_mem_of_ne_nil _ (preferred_ne_nil c.childPriority? hne)
  rcases exists_kept he hd with hkept | ⟨k, hkept, -⟩
  · exact List.ne_nil_of_mem hkept
  · exact List.ne_nil_of_mem hkept

theorem derivations_sublist (he : c.edge? n = some e) :
    (c.derivations n).Sublist (preferred c.childPriority? e.derivations) := by
  unfold derivations
  rw [he]
  exact List.filter_sublist

/-- What is kept comes in two parts, each in the order of the derivations. -/
theorem derivations_eq_append (he : c.edge? n = some e) : ∃ first rest,
    c.derivations n = first ++ rest ∧ first.Sublist e.derivations ∧ rest.Sublist e.derivations ∧
      (∀ d ∈ first, (∃ p, c.childPriority? d = some p) ∧ ¬ c.Outranked e.derivations d) ∧
        ∀ d ∈ rest, c.childPriority? d = none := by
  obtain ⟨first, rest, heq, hfirst, hrest, hsome, hnone⟩ :=
    preferred_eq_append c.childPriority? e.derivations
  have hsub := derivations_sublist he
  rw [heq] at hsub
  obtain ⟨first', rest', hkept, hfirst', hrest'⟩ := List.sublist_append_iff.1 hsub
  refine ⟨first', rest', hkept, hfirst'.trans hfirst, hrest'.trans hrest, fun d hd => ?_,
    fun d hd => hnone d (hrest'.subset hd)⟩
  have hpref : d ∈ preferred c.childPriority? e.derivations := by
    rw [heq]
    exact List.mem_append_left _ (hfirst'.subset hd)
  exact ⟨hsome d (hfirst'.subset hd), (mem_preferred_iff_not_outranked.1 hpref).2⟩

/-- **What counts represents all derivations** of an edge that has any, in every chart; and in every chart
that operations build nothing counts twice. -/
theorem derivations_represent (c : Chart rules) (n : Nat) (e : Edge rules) (he : c.edge? n = some e)
    (hne : e.derivations ≠ []) : c.Represents e.derivations (c.derivations n) ∧
      ((∃ ops, (empty.performAll ops).1 = c) → (c.derivations n).Nodup) := by
  refine ⟨⟨derivations_ne_nil he hne,
    (derivations_sublist he).subperm.trans (subperm_preferred _ _), derivations_eq_append he,
    fun d hd hno => ?_⟩, ?_⟩
  · by_cases hout : c.Outranked e.derivations d
    · exact .inl hout
    · have hpref := mem_preferred_iff_not_outranked.2 ⟨hd, hout⟩
      exact .inr ((exists_kept he hpref).resolve_left hno)
  · rintro ⟨ops, rfl⟩
    exact (wellFormed_performAll wellFormed_empty ops).nodup_derivations n

/-- A rule of two empty symbols. -/
def twoEmpty : Array Rule :=
  #[.of "S" [.nonterminal "A", .nonterminal "B"], .of "A" [], .of "B" []]

/-- The `S` at 0 is found with its `A` anywhere, with its `B` anywhere, and with both at 0. -/
def twoEmptyRun : List (Operation twoEmpty) :=
  [.predict ⟨0, by decide⟩ .anywhere, .predict ⟨0, by decide⟩ (.offset 0),
    .predict ⟨1, by decide⟩ .anywhere, .predict ⟨1, by decide⟩ (.offset 0),
    .predict ⟨2, by decide⟩ .anywhere, .predict ⟨2, by decide⟩ (.offset 0),
    .advance 0 2, .advance 1 3, .advance 6 5, .advance 7 4, .advance 7 5]

/-- The chart that this leads to. -/
def twoEmptyChart : Chart twoEmpty := (Chart.empty.performAll twoEmptyRun).1

/-- The derivations of its `S` at 0. -/
def twoEmptyDerivations : List Derivation :=
  [⟨some 6, some 5, none⟩, ⟨some 7, some 4, none⟩, ⟨some 7, some 5, none⟩]

/-- The last derivation is kept for all three. -/
theorem derivations_represent_twoEmpty :
    (∃ e, twoEmptyChart.edge? 8 = some e ∧ e.derivations = twoEmptyDerivations) ∧
      twoEmptyChart.derivations 8 = [⟨some 7, some 5, none⟩] ∧
        twoEmptyChart.Represents twoEmptyDerivations (twoEmptyChart.derivations 8) ∧
          (twoEmptyChart.derivations 8).Nodup := by
  have hedge : (twoEmptyChart.edge? 8).map Edge.derivations = some twoEmptyDerivations := by
    decide +kernel
  have hkept : twoEmptyChart.derivations 8 = [⟨some 7, some 5, none⟩] := by decide +kernel
  obtain ⟨e, he, hds⟩ := Option.map_eq_some_iff.1 hedge
  have hne : e.derivations ≠ [] := by simp [hds, twoEmptyDerivations]
  obtain ⟨hrep, hnodup⟩ := derivations_represent twoEmptyChart 8 e he hne
  exact ⟨⟨e, he, hds⟩, hkept, hds ▸ hrep, hnodup ⟨twoEmptyRun, rfl⟩⟩

end Chart

end ChartParsing
