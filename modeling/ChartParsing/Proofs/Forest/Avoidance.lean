import ChartParsing.Proofs.Forest.Descent

/-!
# Unfolding around edges

`Chart.around` says what an edge unfolds into if derivations that come back to it, or to one of the edges of
a list, are left out.  It knows nothing of memory, depths and cuts.

An edge is harmless if its derivations do not bring more when the other edges that they ask for are
unfolded in full, through derivations that come back to the edge.

* **`around_anti`**: the more is avoided the less is left.
* **`harmless_of_asks`**: an edge that leads back to itself directly, or not at all, is harmless.
-/

namespace ChartParsing

open Relation

variable {rules : Array Rule}

/-! ### More and less -/

/-- All of the first expansion is in the second one, in this order. -/
inductive Expansion.Within : Expansion → Expansion → Prop
  | readings {l l' : List Reading} (h : l.Sublist l') : Within (.readings l) (.readings l')
  | arguments {l l' : List Arguments} (h : l.Sublist l') : Within (.arguments l) (.arguments l')

namespace Expansion

variable {e e' e'' : Expansion}

theorem Within.refl (e : Expansion) : e.Within e := by
  cases e with
  | readings l => exact .readings (List.Sublist.refl l)
  | arguments l => exact .arguments (List.Sublist.refl l)

theorem Within.trans (h : e.Within e') (h' : e'.Within e'') : e.Within e'' := by
  cases h with
  | readings h =>
      cases h' with
      | readings h' => exact .readings (h.trans h')
  | arguments h =>
      cases h' with
      | arguments h' => exact .arguments (h.trans h')

theorem Within.antisymm (h : e.Within e') (h' : e'.Within e) : e = e' := by
  cases h with
  | readings h =>
      cases h' with
      | readings h' => rw [h.antisymm h']
  | arguments h =>
      cases h' with
      | arguments h' => rw [h.antisymm h']

theorem Within.toReadings (h : e.Within e') : e.toReadings.Sublist e'.toReadings := by
  cases h with
  | readings h => exact h
  | arguments _ => exact List.Sublist.refl []

theorem Within.toArguments (h : e.Within e') : e.toArguments.Sublist e'.toArguments := by
  cases h with
  | readings _ => exact List.Sublist.refl []
  | arguments h => exact h

end Expansion

variable {i : Item rules}

theorem Item.within_expansion {lists lists' : List Arguments} (h : lists.Sublist lists') :
    (i.expansion lists).Within (i.expansion lists') := by
  unfold Item.expansion
  split
  · exact .readings (h.map _)
  · exact .arguments h

/-- As many lists of arguments make as many readings. -/
theorem Item.length_eq_of_expansion_eq {lists lists' : List Arguments}
    (h : i.expansion lists = i.expansion lists') : lists.length = lists'.length := by
  unfold Item.expansion at h
  split at h
  · simpa using congrArg List.length (Expansion.readings.inj h)
  · rw [Expansion.arguments.inj h]

theorem Arguments.product_sublist {lists lists' : List Arguments} {readings readings' : List Reading}
    (h : lists.Sublist lists') (h' : readings.Sublist readings') :
    (product lists readings).Sublist (product lists' readings') := by
  have hone : ∀ args : Arguments, (extendBy args readings).Sublist (extendBy args readings') :=
    fun args => h'.map _
  unfold product
  induction h with
  | slnil => exact List.Sublist.refl []
  | cons args _ ih =>
      rw [List.flatMap_cons]
      exact ih.trans (List.sublist_append_right _ _)
  | cons_cons args _ ih =>
      rw [List.flatMap_cons, List.flatMap_cons]
      exact (hone args).append ih

/-- The edges that the work on a derivation asks for. -/
def Derivation.asked (d : Derivation) : List Nat :=
  match d.base, d.texts, d.child with
  | none, _, _ => []
  | some base, none, some child => [base, child]
  | some base, _, _ => [base]

namespace Chart

variable {c : Chart rules} {n m : Nat} {d : Derivation} {ds : List Derivation}
  {u v : Nat → Expansion} {avoid avoid' : List Nat}

/-- The work on one edge asks for the other one. -/
def Asks (c : Chart rules) (n m : Nat) : Prop :=
  ∃ i, c.item? n = some i ∧ i.isPredicted = false ∧ ∃ d ∈ c.derivations n, m ∈ d.asked

theorem contribution_within (h : ∀ m ∈ d.asked, (u m).Within (v m)) :
    (c.contribution i u d).Sublist (c.contribution i v d) := by
  obtain ⟨base, child, texts⟩ := d
  cases base with
  | none => exact List.Sublist.refl []
  | some base =>
      cases texts with
      | some texts =>
          have hbase := h base (by cases child <;> simp [Derivation.asked])
          exact Arguments.product_sublist hbase.toArguments (List.Sublist.refl _)
      | none =>
          cases child with
          | none => exact List.Sublist.refl []
          | some child =>
              have hbase := h base (by simp [Derivation.asked])
              have hchild := h child (by simp [Derivation.asked])
              exact Arguments.product_sublist hbase.toArguments hchild.toReadings

theorem contributions_within (h : ∀ d ∈ ds, ∀ m ∈ d.asked, (u m).Within (v m)) :
    (ds.flatMap (c.contribution i u)).Sublist (ds.flatMap (c.contribution i v)) := by
  induction ds with
  | nil => exact List.Sublist.refl []
  | cons d ds ih =>
      rw [List.flatMap_cons, List.flatMap_cons]
      exact (contribution_within (h d List.mem_cons_self)).append
        (ih (fun d' hd => h d' (List.mem_cons_of_mem _ hd)))

theorem contributions_congr (h : ∀ d ∈ ds, ∀ m ∈ d.asked, u m = v m) :
    ds.flatMap (c.contribution i u) = ds.flatMap (c.contribution i v) :=
  (contributions_within (fun d hd m hm => h d hd m hm ▸ .refl _)).antisymm
    (contributions_within (fun d hd m hm => h d hd m hm ▸ .refl _))

/-! ### Around some edges -/

/-- What an edge unfolds into if derivations that come to one of these edges, or back to an edge that is
above it in the derivation, are left out. -/
def around (c : Chart rules) (avoid : List Nat) (n : Nat) : Expansion :=
  match _hi : c.item? n with
  | none => .arguments []
  | some i =>
      if _hn : n ∈ avoid then i.expansion []
      else if i.isPredicted then i.expansion [[]]
      else i.expansion
        ((c.derivations n).flatMap (c.contribution i (fun m => around c (n :: avoid) m)))
termination_by ((List.range c.size).filter (fun m => m ∉ avoid)).length
decreasing_by
  have hfilter : (List.range c.size).filter (fun m => m ∉ n :: avoid) =
      ((List.range c.size).filter (fun m => m ∉ avoid)).filter (fun m => m ≠ n) := by
    rw [List.filter_filter]
    refine List.filter_congr (fun m _ => ?_)
    simp [not_or]
  rw [hfilter, List.length_filter_lt_length_iff_exists]
  exact ⟨n, List.mem_filter.2 ⟨List.mem_range.2 (lt_size_of_item? _hi), by simpa using _hn⟩, by simp⟩

theorem around_of_missing (h : c.item? n = none) (avoid : List Nat) :
    c.around avoid n = Forest.nothing c n := by
  unfold around Forest.nothing
  split <;> simp_all

theorem around_of_mem (h : n ∈ avoid) : c.around avoid n = Forest.nothing c n := by
  unfold around Forest.nothing
  split
  · next hi => rw [hi]
  · next i hi => rw [hi, dif_pos h]

theorem around_of_predicted (hi : c.item? n = some i) (hn : n ∉ avoid)
    (hp : i.isPredicted = true) : c.around avoid n = i.expansion [[]] := by
  unfold around
  split
  · next h => simp [hi] at h
  · next j hj =>
      obtain rfl := Option.some.inj (hi.symm.trans hj)
      rw [dif_neg hn, if_pos hp]

/-- The equation of an edge that is not avoided itself. -/
theorem around_eq (hi : c.item? n = some i) (hn : n ∉ avoid) (hp : i.isPredicted = false) :
    c.around avoid n =
      i.expansion ((c.derivations n).flatMap (c.contribution i (c.around (n :: avoid)))) := by
  conv_lhs => unfold around
  split
  · next h => simp [hi] at h
  · next j hj =>
      obtain rfl := Option.some.inj (hi.symm.trans hj)
      rw [dif_neg hn, if_neg (by simp [hp])]

theorem nothing_within_around (c : Chart rules) (avoid : List Nat) (n : Nat) :
    (Forest.nothing c n).Within (c.around avoid n) := by
  cases hi : c.item? n with
  | none => exact around_of_missing hi avoid ▸ .refl _
  | some i =>
      have hnothing : Forest.nothing c n = i.expansion [] := by simp [Forest.nothing, hi]
      rw [hnothing]
      unfold around
      split
      · next h => simp [hi] at h
      · next j hj =>
          obtain rfl := Option.some.inj (hi.symm.trans hj)
          split
          · exact .refl _
          · split <;> exact Item.within_expansion (List.nil_sublist _)

/-- The more is avoided the less is left. -/
theorem around_anti (h : ∀ x ∈ avoid, x ∈ avoid') (n : Nat) :
    (c.around avoid' n).Within (c.around avoid n) := by
  induction avoid, n using around.induct c generalizing avoid' with
  | case1 avoid n hi => rw [around_of_missing hi, around_of_missing hi]; exact .refl _
  | case2 avoid n i hi hn => rw [around_of_mem hn, around_of_mem (h n hn)]; exact .refl _
  | case3 avoid n i hi hn hp =>
      by_cases hn' : n ∈ avoid'
      · rw [around_of_mem hn']
        exact nothing_within_around c avoid n
      · rw [around_of_predicted hi hn hp, around_of_predicted hi hn' hp]
        exact .refl _
  | case4 avoid n i hi hn hp ih =>
      by_cases hn' : n ∈ avoid'
      · rw [around_of_mem hn']
        exact nothing_within_around c avoid n
      · rw [around_eq hi hn (by simpa using hp), around_eq hi hn' (by simpa using hp)]
        refine Item.within_expansion (contributions_within (fun d _ m _ => ih m ?_))
        intro x hx
        rcases List.mem_cons.1 hx with rfl | hx
        · exact List.mem_cons_self
        · exact List.mem_cons_of_mem _ (h x hx)

/-- Only what the edge leads to has to be avoided. -/
theorem around_congr (h : ∀ x, ReflTransGen c.Asks n x → (x ∈ avoid ↔ x ∈ avoid')) :
    c.around avoid n = c.around avoid' n := by
  induction avoid, n using around.induct c generalizing avoid' with
  | case1 avoid n hi => rw [around_of_missing hi, around_of_missing hi]
  | case2 avoid n i hi hn => rw [around_of_mem hn, around_of_mem ((h n .refl).1 hn)]
  | case3 avoid n i hi hn hp =>
      rw [around_of_predicted hi hn hp, around_of_predicted hi (mt (h n .refl).2 hn) hp]
  | case4 avoid n i hi hn hp ih =>
      have hp' : i.isPredicted = false := by simpa using hp
      rw [around_eq hi hn hp', around_eq hi (mt (h n .refl).2 hn) hp']
      refine congrArg i.expansion (contributions_congr (fun d hd m hm => ih m ?_))
      intro x hx
      rw [List.mem_cons, List.mem_cons, h x (.head ⟨i, hi, hp', d, hd, hm⟩ hx)]

/-! ### Harmless edges -/

/-- What edges unfold into, but for one of which there is nothing. -/
def without (c : Chart rules) (n : Nat) (unfold : Nat → Expansion) (m : Nat) : Expansion :=
  if m = n then Forest.nothing c n else unfold m

/-- The derivations of the edge bring the same if the other edges that they ask for are unfolded in full
and if they are unfolded around the edge. -/
def Harmless (c : Chart rules) (n : Nat) : Prop :=
  ∀ i, c.item? n = some i → i.isPredicted = false →
    (c.derivations n).flatMap (c.contribution i (c.without n (c.around []))) =
      (c.derivations n).flatMap (c.contribution i (c.around [n]))

/-- So it is for the edge and all that it is made of. -/
def HarmlessBelow (c : Chart rules) (n : Nat) : Prop :=
  ∀ m, ReflTransGen c.Asks n m → c.Harmless m

theorem HarmlessBelow.asks (h : c.HarmlessBelow n) (hm : c.Asks n m) : c.HarmlessBelow m :=
  fun k hk => h k (.head hm hk)

theorem around_within_without (c : Chart rules) (n m : Nat) :
    (c.around [n] m).Within (c.without n (c.around []) m) := by
  unfold without
  split
  · next h =>
      rw [h, around_of_mem List.mem_cons_self]
      exact .refl _
  · exact around_anti (by simp) m

/-- An edge that only leads back to itself directly is harmless. -/
theorem harmless_of_asks (h : ∀ m, c.Asks n m → ReflTransGen c.Asks m n → m = n) :
    c.Harmless n := by
  intro i hi hp
  refine contributions_congr (fun d hd m hm => ?_)
  unfold without
  split
  · next hmn => rw [hmn, around_of_mem List.mem_cons_self]
  · next hmn =>
      refine around_congr (fun x hx => ?_)
      have hx : x ≠ n := fun hxn => hmn (h m ⟨i, hi, hp, d, hd, hm⟩ (hxn ▸ hx))
      simp [hx]

end Chart

end ChartParsing
