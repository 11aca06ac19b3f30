import ChartParsing.Proofs.Forest.Avoidance

/-!
# Bounds on what a forest answers

What a forest answers lies between two expansions that know nothing of memory.  It is never less than what
there is around the edges that the answer was cut at.  And it is never more than what there is around
nothing, as long as the edge and all that it is made of are harmless.

* **`descend_gathers`** takes the work on one edge apart, for whatever is kept on the way.
* **`descend_answered`** has both bounds.
-/

namespace ChartParsing

open Relation

variable {rules : Array Rule}

/-! ### What a frame gathers -/

/-- Nothing was cut below this depth. -/
def CutFrom (depth : Nat) (cut : Option Nat) : Prop := ∀ c, cut = some c → depth ≤ c

theorem cutFrom_lowerCut {depth : Nat} {a b : Option Nat} :
    CutFrom depth (lowerCut a b) ↔ CutFrom depth a ∧ CutFrom depth b := by
  cases a with
  | none => cases b <;> simp [CutFrom, lowerCut]
  | some a =>
      cases b with
      | none => simp [CutFrom, lowerCut]
      | some b =>
          simp only [CutFrom, lowerCut, Option.some.injEq, forall_eq']
          exact Nat.le_min

theorem lowerCut_eq_some {a b : Option Nat} {c : Nat} (h : lowerCut a b = some c) :
    a = some c ∨ b = some c := by
  cases a with
  | none => exact .inr h
  | some a =>
      cases b with
      | none => exact .inl h
      | some b =>
          simp only [lowerCut, Option.some.injEq] at h ⊢
          omega

theorem lowerCut_none (a : Option Nat) : lowerCut a none = a := by cases a <;> rfl

theorem lowerCut_assoc (a b c : Option Nat) :
    lowerCut (lowerCut a b) c = lowerCut a (lowerCut b c) := by
  cases a <;> cases b <;> cases c <;> simp [lowerCut, Nat.min_assoc]

namespace Chart

variable (chart : Chart rules) (i : Item rules) (Good : Nat → Unfolded → Prop)

/-- What a derivation brings, and the lowest cut, if the edges that it asks for answer in a good way. -/
inductive Gives : Derivation → List Arguments → Option Nat → Prop
  | without (child : Option Nat) (texts : Option (List String)) : Gives ⟨none, child, texts⟩ [] none
  | texts {base : Nat} {u : Unfolded} (child : Option Nat) (texts : List String) (h : Good base u) :
      Gives ⟨some base, child, some texts⟩
        (Arguments.product u.expansion.toArguments (match chart.item? base with
          | some o => i.leaves o texts
          | none => [])) u.cut
  | nothing {base : Nat} {u : Unfolded} (h : Good base u) : Gives ⟨some base, none, none⟩ [] u.cut
  | child {base child : Nat} {u v : Unfolded} (h : Good base u) (h' : Good child v) :
      Gives ⟨some base, some child, none⟩
        (Arguments.product u.expansion.toArguments v.expansion.toReadings) (lowerCut u.cut v.cut)

/-- What several derivations bring. -/
inductive Gathers : List Derivation → List Arguments → Option Nat → Prop
  | nil : Gathers [] [] none
  | cons {d : Derivation} {ds : List Derivation} {lists lists' : List Arguments}
      {cut cut' : Option Nat} (h : chart.Gives i Good d lists cut) (h' : Gathers ds lists' cut') :
      Gathers (d :: ds) (lists ++ lists') (lowerCut cut cut')

variable {chart i Good} {d : Derivation} {ds : List Derivation} {lists : List Arguments}
  {cut : Option Nat} {depth : Nat} {low high : Nat → Expansion}

theorem Gives.cutFrom (h : chart.Gives i Good d lists cut) (hcut : CutFrom depth cut) :
    ∀ m ∈ d.asked, ∃ u, Good m u ∧ CutFrom depth u.cut := by
  intro m hm
  cases h with
  | without child texts => simp [Derivation.asked] at hm
  | texts child texts h =>
      obtain rfl : m = _ := by cases child <;> simpa [Derivation.asked] using hm
      exact ⟨_, h, hcut⟩
  | nothing h =>
      obtain rfl : m = _ := by simpa [Derivation.asked] using hm
      exact ⟨_, h, hcut⟩
  | child h h' =>
      obtain ⟨hu, hv⟩ := cutFrom_lowerCut.1 hcut
      rcases (by simpa [Derivation.asked] using hm : m = _ ∨ m = _) with rfl | rfl
      · exact ⟨_, h, hu⟩
      · exact ⟨_, h', hv⟩

/-- Every edge that is asked for answers, and is not cut below where all of them are. -/
theorem Gathers.cutFrom (h : chart.Gathers i Good ds lists cut) (hcut : CutFrom depth cut) :
    ∀ d ∈ ds, ∀ m ∈ d.asked, ∃ u, Good m u ∧ CutFrom depth u.cut := by
  induction h with
  | nil => simp
  | cons h h' ih =>
      obtain ⟨hone, hall⟩ := cutFrom_lowerCut.1 hcut
      intro d hd m hm
      rcases List.mem_cons.1 hd with rfl | hd
      · exact h.cutFrom hone m hm
      · exact ih hall d hd m hm

theorem Gives.cut_eq (h : chart.Gives i Good d lists cut) {c : Nat} (hcut : cut = some c) :
    ∃ m ∈ d.asked, ∃ u, Good m u ∧ u.cut = some c := by
  cases h with
  | without child texts => simp at hcut
  | texts child texts h => exact ⟨_, by cases child <;> simp [Derivation.asked], _, h, hcut⟩
  | nothing h => exact ⟨_, by simp [Derivation.asked], _, h, hcut⟩
  | child h h' =>
      rcases lowerCut_eq_some hcut with hu | hv
      · exact ⟨_, by simp [Derivation.asked], _, h, hu⟩
      · exact ⟨_, by simp [Derivation.asked], _, h', hv⟩

/-- Something was cut because it was for one of the edges asked for. -/
theorem Gathers.cut_eq (h : chart.Gathers i Good ds lists cut) {c : Nat} (hcut : cut = some c) :
    ∃ d ∈ ds, ∃ m ∈ d.asked, ∃ u, Good m u ∧ u.cut = some c := by
  induction h with
  | nil => simp at hcut
  | cons h h' ih =>
      rcases lowerCut_eq_some hcut with hone | hall
      · exact ⟨_, List.mem_cons_self, h.cut_eq hone⟩
      · obtain ⟨d, hd, hrest⟩ := ih hall
        exact ⟨d, List.mem_cons_of_mem _ hd, hrest⟩

/-- If no edge answers less than given, no less is gathered. -/
theorem Gathers.lower (h : chart.Gathers i Good ds lists cut) (hcut : CutFrom depth cut)
    (hlow : ∀ d ∈ ds, ∀ m ∈ d.asked, ∀ u, Good m u → CutFrom depth u.cut →
      (low m).Within u.expansion) :
    (ds.flatMap (chart.contribution i low)).Sublist lists := by
  induction h with
  | nil => exact List.Sublist.refl []
  | cons h h' ih =>
      obtain ⟨hone, hall⟩ := cutFrom_lowerCut.1 hcut
      rw [List.flatMap_cons]
      refine List.Sublist.append ?_ (ih hall (fun d hd => hlow d (List.mem_cons_of_mem _ hd)))
      have hlow' := hlow _ List.mem_cons_self
      cases h with
      | without child texts => exact List.Sublist.refl []
      | texts child texts h =>
          have hbase := hlow' _ (by cases child <;> simp [Derivation.asked]) _ h hone
          exact Arguments.product_sublist hbase.toArguments (List.Sublist.refl _)
      | nothing h => exact List.Sublist.refl []
      | child h h' =>
          obtain ⟨hu, hv⟩ := cutFrom_lowerCut.1 hone
          have hbase := hlow' _ (by simp [Derivation.asked]) _ h hu
          have hchild := hlow' _ (by simp [Derivation.asked]) _ h' hv
          exact Arguments.product_sublist hbase.toArguments hchild.toReadings

/-- If no edge answers more than given, no more is gathered. -/
theorem Gathers.upper (h : chart.Gathers i Good ds lists cut)
    (hhigh : ∀ d ∈ ds, ∀ m ∈ d.asked, ∀ u, Good m u → u.expansion.Within (high m)) :
    lists.Sublist (ds.flatMap (chart.contribution i high)) := by
  induction h with
  | nil => exact List.Sublist.refl []
  | cons h h' ih =>
      rw [List.flatMap_cons]
      refine List.Sublist.append ?_ (ih (fun d hd => hhigh d (List.mem_cons_of_mem _ hd)))
      have hhigh' := hhigh _ List.mem_cons_self
      cases h with
      | without child texts => exact List.Sublist.refl []
      | texts child texts h =>
          have hbase := hhigh' _ (by cases child <;> simp [Derivation.asked]) _ h
          exact Arguments.product_sublist hbase.toArguments (List.Sublist.refl _)
      | nothing h => exact List.Sublist.refl []
      | child h h' =>
          have hbase := hhigh' _ (by simp [Derivation.asked]) _ h
          have hchild := hhigh' _ (by simp [Derivation.asked]) _ h'
          exact Arguments.product_sublist hbase.toArguments hchild.toReadings

end Chart

namespace Forest

variable {chart : Chart rules} {f f' : Forest chart} {n m k depth : Nat} {i : Item rules}
  {d : Derivation} {p : Progress chart} {Keeps : Forest chart → Prop} {Good : Nat → Unfolded → Prop}
  {ask : Forest chart → Nat → Forest chart × Unfolded}

theorem take_gives (hp : Keeps p.forest)
    (hask : ∀ m ∈ d.asked, ∀ f, Keeps f → Keeps (ask f m).1 ∧ Good m (ask f m).2) :
    Keeps (p.take ask i d).forest ∧ ∃ lists cut, chart.Gives i Good d lists cut ∧
      (p.take ask i d).found = p.found ++ lists ∧ (p.take ask i d).cut = lowerCut p.cut cut := by
  obtain ⟨base, child, texts⟩ := d
  cases base with
  | none => exact ⟨hp, [], none, .without child texts, by simp [Progress.take], (lowerCut_none _).symm⟩
  | some base =>
      obtain ⟨hkeeps, hgood⟩ :=
        hask base (by cases texts <;> cases child <;> simp [Derivation.asked]) p.forest hp
      cases texts with
      | some texts => exact ⟨hkeeps, _, _, .texts child texts hgood, rfl, rfl⟩
      | none =>
          cases child with
          | none => exact ⟨hkeeps, [], _, .nothing hgood, (List.append_nil _).symm, rfl⟩
          | some child =>
              obtain ⟨hkeeps', hgood'⟩ := hask child (by simp [Derivation.asked]) _ hkeeps
              exact ⟨hkeeps', _, _, .child hgood hgood', rfl, lowerCut_assoc _ _ _⟩

variable (Keeps Good ask) in
theorem foldl_take_gathers (ds : List Derivation) (hp : Keeps p.forest)
    (hask : ∀ d ∈ ds, ∀ m ∈ d.asked, ∀ f, Keeps f → Keeps (ask f m).1 ∧ Good m (ask f m).2) :
    Keeps (ds.foldl (Progress.take ask i) p).forest ∧ ∃ lists cut, chart.Gathers i Good ds lists cut ∧
      (ds.foldl (Progress.take ask i) p).found = p.found ++ lists ∧
      (ds.foldl (Progress.take ask i) p).cut = lowerCut p.cut cut := by
  induction ds generalizing p with
  | nil => exact ⟨hp, [], none, .nil, (List.append_nil _).symm, (lowerCut_none _).symm⟩
  | cons d ds ih =>
      obtain ⟨hkeeps, lists, cut, hgives, hfound, hcut⟩ :=
        take_gives (i := i) hp (hask d List.mem_cons_self)
      obtain ⟨hkeeps', lists', cut', hgathers, hfound', hcut'⟩ :=
        ih hkeeps (fun d' hd => hask d' (List.mem_cons_of_mem _ hd))
      refine ⟨hkeeps', _, _, .cons hgives hgathers, ?_, ?_⟩
      · rw [List.foldl_cons, hfound', hfound, List.append_assoc]
      · rw [List.foldl_cons, hcut', hcut, lowerCut_assoc]

/-- The end of the work on an edge. -/
theorem conclude_cases {active : List (Nat × Nat)} (ha : f.active = (n, depth) :: active)
    (hn : active.lookup n = none) (i : Item rules) (lists : List Arguments) (cut : Option Nat) :
    CutFrom depth cut ∧ f.conclude n depth i lists cut =
        (⟨(n, i.expansion lists) :: f.known, active⟩, ⟨i.expansion lists, none⟩) ∨
      ∃ c, cut = some c ∧ c < depth ∧ f.conclude n depth i lists cut =
        (⟨f.known, active⟩, ⟨i.expansion lists, some c⟩) := by
  have hafter := active_conclude ha hn i lists cut
  unfold conclude at hafter ⊢
  dsimp only at hafter ⊢
  by_cases hall : cut.all (fun c => depth ≤ c) = true
  · rw [if_pos hall] at hafter ⊢
    dsimp only at hafter
    rw [hafter]
    refine .inl ⟨fun c hc => ?_, rfl⟩
    subst hc
    simpa using hall
  · rw [if_neg hall] at hafter ⊢
    dsimp only at hafter
    rw [hafter]
    cases cut with
    | none => simp at hall
    | some c => exact .inr ⟨c, rfl, by simpa using hall, rfl⟩

variable (depth Keeps Good) in
/-- **The work on one edge.**  It puts together what its derivations bring; whatever the edges that they
ask for keep is kept, and whatever is good about their answers is good about what is put together.  What
comes of it is kept if nothing was cut below the edge. -/
theorem descend_gathers (h : f.answer? n = none) (hi : chart.item? n = some i)
    (hfree : f.free ≤ k + 1) (henter : Keeps ⟨f.known, (n, depth) :: f.active⟩)
    (hask : ∀ f' m, f'.active = (n, depth) :: f.active → Keeps f' → chart.Asks n m →
      f'.free ≤ k → Keeps (f'.descend k (depth + 1) m).1 ∧ Good m (f'.descend k (depth + 1) m).2) :
    ∃ f' lists cut, chart.Gathers i Good (chart.derivations n) lists cut ∧ Keeps f' ∧
      f'.active = (n, depth) :: f.active ∧
      (CutFrom depth cut ∧ f.descend (k + 1) depth n =
          (⟨(n, i.expansion lists) :: f'.known, f.active⟩, ⟨i.expansion lists, none⟩) ∨
        ∃ c, cut = some c ∧ c < depth ∧ f.descend (k + 1) depth n =
          (⟨f'.known, f.active⟩, ⟨i.expansion lists, some c⟩)) := by
  obtain ⟨-, hactive, i', hi', hp⟩ := answer?_eq_none h
  obtain rfl := Option.some.inj (hi.symm.trans hi')
  have hless := free_enter_lt hactive (Chart.lt_size_of_item? hi) depth
  obtain ⟨⟨hkeeps, hact⟩, lists, cut, hgathers, hfound, hcut⟩ := foldl_take_gathers
    (fun f' => Keeps f' ∧ f'.active = (n, depth) :: f.active) Good
    (fun f m => f.descend k (depth + 1) m) (chart.derivations n) (i := i)
    (p := ⟨{ f with active := (n, depth) :: f.active }, [], none⟩) ⟨henter, rfl⟩ (fun d hd m hm f' hf' => by
      have hfree' : f'.free ≤ k := by
        rw [free_of_active (f := ⟨f.known, (n, depth) :: f.active⟩) hf'.2]
        omega
      obtain ⟨hkeeps, hgood⟩ := hask f' m hf'.2 hf'.1 ⟨i, hi, hp, d, hd, hm⟩ hfree'
      exact ⟨⟨hkeeps, ((leads_descend chart k f' [] (depth + 1) m hfree').2).trans hf'.2⟩, hgood⟩)
  refine ⟨_, lists, cut, hgathers, hkeeps, hact, ?_⟩
  rw [descend_of_item h hi]
  dsimp only
  rw [hfound, hcut]
  have hends := conclude_cases hact hactive i lists cut
  cases cut <;> exact hends

theorem answer?_cases {a : Forest chart × Unfolded} (h : f.answer? n = some a) :
    (∃ e, f.known.lookup n = some e ∧ a = (f, ⟨e, none⟩)) ∨
    (∃ c, f.known.lookup n = none ∧ f.active.lookup n = some c ∧
      a = (f, ⟨nothing chart n, some c⟩)) ∨
    (f.active.lookup n = none ∧ chart.item? n = none ∧ a = (f, ⟨nothing chart n, none⟩)) ∨
    ∃ i, f.known.lookup n = none ∧ f.active.lookup n = none ∧ chart.item? n = some i ∧
      i.isPredicted = true ∧
      a = (⟨(n, i.expansion [[]]) :: f.known, f.active⟩, ⟨i.expansion [[]], none⟩) := by
  unfold answer? at h
  split at h
  · next e hk => exact .inl ⟨e, hk, (Option.some.inj h).symm⟩
  · next c hk ha => exact .inr (.inl ⟨c, hk, ha, (Option.some.inj h).symm⟩)
  · next hk ha hi => exact .inr (.inr (.inl ⟨ha, hi, (Option.some.inj h).symm⟩))
  · next i hk ha hi =>
      split at h
      · next hp => exact .inr (.inr (.inr ⟨i, hk, ha, hi, hp, (Option.some.inj h).symm⟩))
      · simp at h

/-- The edges that are being unfolded at this depth or deeper. -/
def deepOf (active : List (Nat × Nat)) (depth : Nat) : List Nat :=
  (active.filter (fun q => depth ≤ q.2)).map Prod.fst

theorem mem_deepOf {active : List (Nat × Nat)} {c : Nat} :
    n ∈ deepOf active c ↔ ∃ d, c ≤ d ∧ (n, d) ∈ active := by
  simp [deepOf, and_comm]

theorem mem_of_lookup {α : Type} {list : List (Nat × α)} {a : α} (h : list.lookup n = some a) :
    (n, a) ∈ list := by
  obtain ⟨front, back, rfl, -⟩ := List.lookup_eq_some_iff.1 h
  simp

theorem lookup_cons_of_ne {α : Type} {list : List (Nat × α)} {a : α} (h : m ≠ n) :
    ((n, a) :: list).lookup m = list.lookup m := by
  rw [List.lookup_cons, beq_eq_false_iff_ne.2 h]

/-- The depths of active edges stay below the depth at hand. -/
theorem lt_succ_of_active (hactive : f'.active = (n, depth) :: f.active)
    (hdepths : ∀ q ∈ f.active, q.2 < depth) : ∀ q ∈ f'.active, q.2 < depth + 1 := by
  intro q hq
  rw [hactive] at hq
  rcases List.mem_cons.1 hq with rfl | hq
  · exact Nat.lt_succ_self _
  · exact Nat.lt_succ_of_lt (hdepths q hq)

/-- What is known of edges is within bounds. -/
structure Fair (f : Forest chart) : Prop where
  /-- Nothing is known of an edge that is being unfolded. -/
  apart : ∀ m, f.active.lookup m ≠ none → f.known.lookup m = none
  lower : ∀ m e, f.known.lookup m = some e → (chart.around [] m).Within e
  full : ∀ m e, chart.HarmlessBelow m → f.known.lookup m = some e → e = chart.around [] m

/-- The answer for an edge is within bounds. -/
structure Bounded (chart : Chart rules) (active : List (Nat × Nat)) (n : Nat) (u : Unfolded) :
    Prop where
  lower : ∀ c, CutFrom c u.cut → (chart.around (deepOf active c) n).Within u.expansion
  upper : chart.HarmlessBelow n → u.expansion.Within (chart.around [] n)
  /-- If it was cut the edge leads to one that is being unfolded at this depth. -/
  origin : ∀ c, u.cut = some c → ∃ a, (a, c) ∈ active ∧ ReflTransGen chart.Asks n a

/-- The forest and the answer after the work on an edge. -/
structure Answered (f : Forest chart) (n : Nat) (f' : Forest chart) (u : Unfolded) : Prop where
  fair : f'.Fair
  bounded : Bounded chart f.active n u
  /-- What was known stays known. -/
  keeps : ∀ m e, f.known.lookup m = some e → f'.known.lookup m = some e
  /-- An answer that was not cut is known from now on. -/
  known : u.cut = none → chart.item? n ≠ none → f'.known.lookup n = some u.expansion

theorem Fair.learn (hfair : f.Fair) (hactive : f.active.lookup n = none) {e : Expansion}
    (hlower : (chart.around [] n).Within e)
    (hfull : chart.HarmlessBelow n → e = chart.around [] n) :
    (⟨(n, e) :: f.known, f.active⟩ : Forest chart).Fair where
  apart m hm := by
    have hne : m ≠ n := fun h => hm (h ▸ hactive)
    rw [lookup_cons_of_ne hne]
    exact hfair.apart m hm
  lower m e' hm := by
    rw [List.lookup_cons] at hm
    split at hm
    · next h =>
        obtain rfl : m = n := by simpa using h
        exact Option.some.inj hm ▸ hlower
    · exact hfair.lower m e' hm
  full m e' hharmless hm := by
    rw [List.lookup_cons] at hm
    split at hm
    · next h =>
        obtain rfl : m = n := by simpa using h
        exact Option.some.inj hm ▸ hfull hharmless
    · exact hfair.full m e' hharmless hm

theorem keeps_learn {known : List (Nat × Expansion)} {e e' : Expansion} (hn : known.lookup n = none)
    (hm : known.lookup m = some e') : ((n, e) :: known).lookup m = some e' := by
  rw [List.lookup_cons]
  split
  · next h =>
      obtain rfl : m = n := by simpa using h
      simp [hn] at hm
  · exact hm

theorem answered_of_answer? {a : Forest chart × Unfolded} (hfair : f.Fair)
    (h : f.answer? n = some a) : Answered f n a.1 a.2 := by
  rcases answer?_cases h with ⟨e, hk, rfl⟩ | ⟨c, hk, ha, rfl⟩ | ⟨ha, hi, rfl⟩ |
    ⟨i, hk, ha, hi, hp, rfl⟩
  · -- known already
    refine ⟨hfair, ⟨fun c _ => ?_, fun hh => ?_, by simp⟩, fun m e' hm => hm, fun _ _ => hk⟩
    · exact (Chart.around_anti (by simp) n).trans (hfair.lower n e hk)
    · exact hfair.full n e hh hk ▸ .refl _
  · -- being unfolded
    have hmem := mem_of_lookup ha
    refine ⟨hfair, ⟨fun c' hcut => ?_, fun _ => Chart.nothing_within_around chart [] n,
      fun c' hc => ?_⟩, fun m e' hm => hm, by simp⟩
    · rw [Chart.around_of_mem (mem_deepOf.2 ⟨c, hcut c rfl, hmem⟩)]
      exact .refl _
    · exact ⟨n, Option.some.inj hc ▸ hmem, .refl⟩
  · -- not there
    refine ⟨hfair, ⟨fun c _ => ?_, fun _ => Chart.nothing_within_around chart [] n, by simp⟩,
      fun m e' hm => hm, fun _ hne => absurd hi hne⟩
    rw [Chart.around_of_missing hi]
    exact .refl _
  · -- with the dot in front
    have heq : chart.around [] n = i.expansion [[]] := Chart.around_of_predicted hi (by simp) hp
    refine ⟨hfair.learn ha (heq ▸ .refl _) (fun _ => heq.symm),
      ⟨fun c _ => ?_, fun _ => heq ▸ .refl _, by simp⟩, fun m e' hm => keeps_learn hk hm,
      fun _ _ => by simp⟩
    exact heq ▸ Chart.around_anti (by simp) n

/-- Turning to an edge that is being unfolded. -/
theorem descend_of_active {c : Nat} (hk : f.known.lookup n = none) (ha : f.active.lookup n = some c)
    (k depth : Nat) : f.descend k depth n = (f, ⟨nothing chart n, some c⟩) := by
  refine descend_of_answer? ?_ k depth
  unfold answer?
  rw [hk, ha]

/-- Entering an edge of which nothing is known. -/
theorem Fair.enter (hfair : f.Fair) (hk : f.known.lookup n = none) (depth : Nat) :
    (⟨f.known, (n, depth) :: f.active⟩ : Forest chart).Fair where
  apart m hm := by
    rw [List.lookup_cons] at hm
    split at hm
    · next hmn =>
        obtain rfl : m = n := by simpa using hmn
        exact hk
    · exact hfair.apart m hm
  lower := hfair.lower
  full := hfair.full

theorem Fair.leave {active : List (Nat × Nat)} (hfair : f.Fair)
    (hactive : f.active = (n, depth) :: active) : (⟨f.known, active⟩ : Forest chart).Fair where
  apart m hm := by
    refine hfair.apart m ?_
    rw [hactive, List.lookup_cons]
    split
    · simp
    · exact hm
  lower := hfair.lower
  full := hfair.full

/-- The answers that the frame of an edge gets: within bounds, and nothing for the edge itself. -/
def Received (chart : Chart rules) (active : List (Nat × Nat)) (n depth m : Nat) (u : Unfolded) :
    Prop :=
  Bounded chart ((n, depth) :: active) m u ∧ (m = n → u.expansion = nothing chart n)

section Received

variable {active : List (Nat × Nat)} {lists : List Arguments} {cut : Option Nat} {c : Nat}

theorem lower_of_gathers (hi : chart.item? n = some i) (hp : i.isPredicted = false)
    (h : chart.Gathers i (Received chart active n depth) (chart.derivations n) lists cut)
    (hcut : CutFrom c cut) {avoid : List Nat}
    (havoid : ∀ x ∈ deepOf ((n, depth) :: active) c, x ∈ n :: avoid) :
    (chart.around avoid n).Within (i.expansion lists) := by
  by_cases hn : n ∈ avoid
  · have hnothing : nothing chart n = i.expansion [] := by simp [nothing, hi]
    rw [Chart.around_of_mem hn, hnothing]
    exact Item.within_expansion (List.nil_sublist _)
  · rw [Chart.around_eq hi hn hp]
    exact Item.within_expansion (h.lower hcut (fun d _ m _ u hu hcut' =>
      (Chart.around_anti havoid m).trans (hu.1.lower c hcut')))

/-- Of a harmless edge no more is found than there is around it. -/
theorem upper_of_gathers (hi : chart.item? n = some i) (hp : i.isPredicted = false)
    (h : chart.Gathers i (Received chart active n depth) (chart.derivations n) lists cut)
    (hh : chart.HarmlessBelow n) : (i.expansion lists).Within (chart.around [] n) := by
  rw [Chart.around_eq hi (by simp) hp, ← hh n .refl i hi hp]
  refine Item.within_expansion (h.upper (fun d hd m hm u hu => ?_))
  unfold Chart.without
  split
  · next hmn => exact hu.2 hmn ▸ .refl _
  · exact hu.1.upper (hh.asks ⟨i, hi, hp, d, hd, hm⟩)

end Received

/-- **Every answer is within bounds**, and the forest stays fair. -/
theorem descend_answered (k : Nat) (hfree : f.free ≤ k) (hfair : f.Fair)
    (hdepths : ∀ q ∈ f.active, q.2 < depth) :
    Answered f n (f.descend k depth n).1 (f.descend k depth n).2 := by
  induction k generalizing f depth n with
  | zero =>
      cases h : f.answer? n with
      | none => exact absurd (free_pos h) (by omega)
      | some a =>
          rw [descend_of_answer? h]
          exact answered_of_answer? hfair h
  | succ k ih =>
      cases h : f.answer? n with
      | some a =>
          rw [descend_of_answer? h]
          exact answered_of_answer? hfair h
      | none =>
          obtain ⟨hk, ha, i, hi, hp⟩ := answer?_eq_none h
          -- the frame keeps a fair forest in which what was known is still known
          obtain ⟨f', lists, cut, hgathers, ⟨hfair', hkeeps⟩, hactive', hends⟩ := descend_gathers
            depth (fun f' => f'.Fair ∧ ∀ m e, f.known.lookup m = some e →
              f'.known.lookup m = some e) (Received chart f.active n depth) h hi hfree
            ⟨hfair.enter hk depth, fun m e hm => hm⟩ (fun f' m hact hf' hasks hfree' => by
              have hdepths' := lt_succ_of_active hact hdepths
              have hanswered := ih (n := m) hfree' hf'.1 hdepths'
              refine ⟨⟨hanswered.fair, fun m' e hm => hanswered.keeps m' e (hf'.2 m' e hm)⟩,
                hact ▸ hanswered.bounded, ?_⟩
              rintro rfl
              have hself : f'.active.lookup m = some depth := by simp [hact]
              rw [descend_of_active (hf'.1.apart m (by simp [hself])) hself])
          have hupper := upper_of_gathers hi hp hgathers
          have hleft := hfair'.leave hactive'
          rcases hends with ⟨hcut, hends⟩ | ⟨c, hcut, hlt, hends⟩
          · -- nothing was cut below the edge, so at most the edge itself was avoided
            have hlower : (chart.around [] n).Within (i.expansion lists) := by
              refine lower_of_gathers hi hp hgathers hcut (fun x hx => ?_)
              obtain ⟨d, hd, hmem⟩ := mem_deepOf.1 hx
              rcases List.mem_cons.1 hmem with heq | hmem
              · simp [(Prod.mk.inj heq).1]
              · exact absurd (hdepths _ hmem) (Nat.not_lt.2 hd)
            have hnone : f'.known.lookup n = none := hfair'.apart n (by simp [hactive'])
            rw [hends]
            exact ⟨hleft.learn ha hlower (fun hh => (hupper hh).antisymm hlower),
              ⟨fun c _ => (Chart.around_anti (by simp) n).trans hlower, hupper, by simp⟩,
              fun m e hm => keeps_learn hnone (hkeeps m e hm), fun _ _ => by simp⟩
          · -- something further out was cut, and what came of the edge is not known from now on
            rw [hends]
            refine ⟨hleft, ⟨fun c' hc' => ?_, hupper, fun c' hc' => ?_⟩, hkeeps, by simp⟩
            · refine lower_of_gathers hi hp hgathers (hcut ▸ hc') (fun x hx => ?_)
              obtain ⟨d, hd, hmem⟩ := mem_deepOf.1 hx
              rcases List.mem_cons.1 hmem with heq | hmem
              · simp [(Prod.mk.inj heq).1]
              · exact List.mem_cons_of_mem _ (mem_deepOf.2 ⟨d, hd, hmem⟩)
            · obtain rfl := Option.some.inj hc'
              obtain ⟨d, hd, m, hm, u, hu, hcut'⟩ := hgathers.cut_eq hcut
              obtain ⟨a, ha', hreach⟩ := hu.1.origin _ hcut'
              refine ⟨a, ?_, .head ⟨i, hi, hp, d, hd, hm⟩ hreach⟩
              rcases List.mem_cons.1 ha' with heq | hmem
              · exact absurd (Prod.mk.inj heq).2 (Nat.ne_of_lt hlt)
              · exact hmem

end Forest

end ChartParsing
