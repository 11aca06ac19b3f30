import ChartParsing.Proofs.Forest.Bounds

/-!
# What a fresh forest answers

While an edge is being unfolded, edges that lead back to it are cut there and so do not become known.  In a
fresh forest, then, nothing at all is known of the cycles that an edge is on, and if what is below these
cycles is harmless the edge unfolds into what there is around nothing.

* **`descend_blocked`**: what leads to an edge that is being unfolded is cut.
* **`expand_new`**: the answer of a fresh forest.
-/

namespace ChartParsing

open Relation

variable {rules : Array Rule}

namespace Forest

variable {chart : Chart rules} {f : Forest chart} {n m r k depth : Nat} {i : Item rules}
  {active : List (Nat × Nat)} {Among : Nat → Prop}

/-! ### Edges that cannot become known -/

/-- One step towards an edge, among certain edges and out of one that is not being unfolded. -/
def Towards (chart : Chart rules) (Among : Nat → Prop) (active : List (Nat × Nat)) (x y : Nat) :
    Prop :=
  chart.Asks x y ∧ Among y ∧ active.lookup x = none

/-- The answer was cut at every edge that is being unfolded and that the edge leads to, or further out. -/
def Blocked (chart : Chart rules) (Among : Nat → Prop) (active : List (Nat × Nat)) (n : Nat)
    (u : Unfolded) : Prop :=
  Among n → ∀ a c, active.lookup a = some c → ReflTransGen (Towards chart Among active) n a →
    ¬ CutFrom (c + 1) u.cut

/-- On the way to an edge that is being unfolded there is a first one. -/
theorem exists_towards (hr : active.lookup r ≠ none)
    (h : ReflTransGen (fun x y => chart.Asks x y ∧ Among y) n r) :
    ∃ a c, active.lookup a = some c ∧ ReflTransGen (Towards chart Among active) n a := by
  induction h using ReflTransGen.head_induction_on with
  | refl =>
      obtain ⟨c, hc⟩ := Option.ne_none_iff_exists'.1 hr
      exact ⟨r, c, hc, .refl⟩
  | @head x y hxy _ ih =>
      cases hx : active.lookup x with
      | some c => exact ⟨x, c, hx, .refl⟩
      | none =>
          obtain ⟨a, c, ha, hreach⟩ := ih
          exact ⟨a, c, ha, .head ⟨hxy.1, hxy.2, hx⟩ hreach⟩

/-- A way goes on from where it has left its first edge for the last time. -/
theorem exists_asks_of_towards {a : Nat} (h : ReflTransGen (Towards chart Among active) n a)
    (hne : a ≠ n) (depth : Nat) : ∃ m, chart.Asks n m ∧ Among m ∧
      ReflTransGen (Towards chart Among ((n, depth) :: active)) m a := by
  induction h with
  | refl => exact absurd rfl hne
  | @tail x y _ hxy ih =>
      by_cases hx : x = n
      · subst hx
        exact ⟨y, hxy.1, hxy.2.1, .refl⟩
      · obtain ⟨m, hm, hamong, hreach⟩ := ih hx
        refine ⟨m, hm, hamong, hreach.tail ⟨hxy.1, hxy.2.1, ?_⟩⟩
        rw [lookup_cons_of_ne hx]
        exact hxy.2.2

section Blocked

variable (hamong : ∀ z, Among z → ReflTransGen (fun x y => chart.Asks x y ∧ Among y) z r)

include hamong

theorem blocked_of_answer? {a : Forest chart × Unfolded} (hr : f.active.lookup r ≠ none)
    (hopen : ∀ z, Among z → f.known.lookup z = none) (h : f.answer? n = some a) :
    (∀ z, Among z → a.1.known.lookup z = none) ∧ Blocked chart Among f.active n a.2 := by
  -- an edge that is not being unfolded itself asks for another one
  have hasks : f.active.lookup n = none → Among n → ∃ m, chart.Asks n m := by
    intro hn hz
    rcases (hamong n hz).cases_head with rfl | ⟨m, hm, -⟩
    · exact absurd hn hr
    · exact ⟨m, hm.1⟩
  rcases answer?_cases h with ⟨e, hk, rfl⟩ | ⟨c, hk, ha, rfl⟩ | ⟨ha, hi, rfl⟩ |
    ⟨i, hk, ha, hi, hp, rfl⟩
  · exact ⟨hopen, fun hz => by simp [hopen n hz] at hk⟩
  · refine ⟨hopen, fun _ b c' hb hreach hcut => ?_⟩
    rcases hreach.cases_head with rfl | ⟨m, hm, -⟩
    · obtain rfl := Option.some.inj (ha.symm.trans hb)
      exact absurd (hcut c rfl) (by omega)
    · exact absurd hm.2.2 (by simp [ha])
  · refine ⟨hopen, fun hz => ?_⟩
    obtain ⟨m, i, hi', -⟩ := hasks ha hz
    simp [hi] at hi'
  · have hnot : ¬ Among n := by
      intro hz
      obtain ⟨m, i', hi', hp', -⟩ := hasks ha hz
      obtain rfl := Option.some.inj (hi.symm.trans hi')
      simp [hp] at hp'
    refine ⟨fun z hz => ?_, fun hz => absurd hz hnot⟩
    have hne : z ≠ n := fun h => hnot (h ▸ hz)
    rw [lookup_cons_of_ne hne]
    exact hopen z hz

/-- Edges of which nothing is known, and which lead among themselves to one that is being unfolded, do not
become known: they are cut there. -/
theorem descend_blocked (k : Nat) (hfree : f.free ≤ k) (hdepths : ∀ q ∈ f.active, q.2 < depth)
    (hr : f.active.lookup r ≠ none) (hopen : ∀ z, Among z → f.known.lookup z = none) :
    (∀ z, Among z → (f.descend k depth n).1.known.lookup z = none) ∧
      Blocked chart Among f.active n (f.descend k depth n).2 := by
  induction k generalizing f depth n with
  | zero =>
      cases h : f.answer? n with
      | none => exact absurd (free_pos h) (by omega)
      | some a =>
          rw [descend_of_answer? h]
          exact blocked_of_answer? hamong hr hopen h
  | succ k ih =>
      cases h : f.answer? n with
      | some a =>
          rw [descend_of_answer? h]
          exact blocked_of_answer? hamong hr hopen h
      | none =>
          obtain ⟨-, ha, i, hi, hp⟩ := answer?_eq_none h
          obtain ⟨f', lists, cut, hgathers, hopen', hactive', hends⟩ := descend_gathers
            depth (fun f' => ∀ z, Among z → f'.known.lookup z = none)
            (Blocked chart Among ((n, depth) :: f.active)) h hi hfree hopen (fun f' m hact hf' _ hfree' => by
              have hdepths' := lt_succ_of_active hact hdepths
              have hr' : f'.active.lookup r ≠ none := by
                rw [hact, List.lookup_cons]
                split
                · simp
                · exact hr
              have hall := ih (n := m) hfree' hdepths' hr' hf'
              rwa [hact] at hall)
          have hblocked : ∀ u : Unfolded, u.cut = cut → Blocked chart Among f.active n u := by
            rintro u rfl hz a c hac hreach hcut
            have hne : a ≠ n := fun h => by simp [h, ha] at hac
            obtain ⟨m, ⟨i', hi', hp', d, hd, hm⟩, hz', hreach'⟩ :=
              exists_asks_of_towards hreach hne depth
            obtain ⟨u, hu, hcut'⟩ := hgathers.cutFrom hcut d hd m hm
            refine hu hz' a c ?_ hreach' hcut'
            rw [lookup_cons_of_ne hne]
            exact hac
          rcases hends with ⟨hcut, hends⟩ | ⟨c, hcut, -, hends⟩
          · -- so nothing leads from here to an edge that is being unfolded
            have hnot : ¬ Among n := by
              intro hz
              obtain ⟨a, c, hac, hreach⟩ := exists_towards hr (hamong n hz)
              have hlt := hdepths _ (mem_of_lookup hac)
              exact hblocked ⟨i.expansion lists, cut⟩ rfl hz a c hac hreach
                (fun x hx => Nat.le_trans hlt (hcut x hx))
            rw [hends]
            refine ⟨fun z hz => ?_, fun hz => absurd hz hnot⟩
            have hne : z ≠ n := fun h => hnot (h ▸ hz)
            rw [lookup_cons_of_ne hne]
            exact hopen' z hz
          · rw [hends]
            exact ⟨hopen', hblocked _ hcut.symm⟩

end Blocked

/-! ### A fresh forest -/

/-- An edge is being unfolded, on a way that can only lead back to it, and nothing is known that does. -/
structure Around (f : Forest chart) (r : Nat) : Prop where
  fair : f.Fair
  back : ∀ q ∈ f.active, ReflTransGen chart.Asks q.1 r
  unknown : ∀ z, ReflTransGen chart.Asks z r → f.known.lookup z = none

theorem not_mem_of_lookup (h : f.active.lookup n = none) : n ∉ f.active.map Prod.fst := by
  intro hn
  obtain ⟨q, hq, rfl⟩ := List.mem_map.1 hn
  simpa using List.lookup_eq_none_iff.1 h q hq

/-- What does not lead back to the edge has nothing to do with those that are being unfolded. -/
theorem Around.around_eq (h : f.Around r) (hn : ¬ ReflTransGen chart.Asks n r) {avoid : List Nat}
    (havoid : ∀ x ∈ avoid, x ∈ f.active.map Prod.fst) : chart.around avoid n = chart.around [] n := by
  refine Chart.around_congr (fun x hx => iff_of_false (fun hmem => ?_) (by simp))
  obtain ⟨q, hq, rfl⟩ := List.mem_map.1 (havoid x hmem)
  exact hn (hx.trans (h.back q hq))

theorem fair_new (chart : Chart rules) : (new chart).Fair where
  apart m hm := rfl
  lower m e hm := by simp [new] at hm
  full m e _ hm := by simp [new] at hm

section Fresh

variable (hbelow : ∀ m, ReflTransGen chart.Asks r m → ¬ ReflTransGen chart.Asks m r →
  chart.HarmlessBelow m)

include hbelow

theorem expansion_of_answer? {a : Forest chart × Unfolded} (hround : f.Around r)
    (hn : ReflTransGen chart.Asks r n) (h : f.answer? n = some a) :
    a.2.expansion = chart.around (f.active.map Prod.fst) n := by
  rcases answer?_cases h with ⟨e, hk, rfl⟩ | ⟨c, hk, ha, rfl⟩ | ⟨ha, hi, rfl⟩ |
    ⟨i, hk, ha, hi, hp, rfl⟩
  · have hnr : ¬ ReflTransGen chart.Asks n r := fun hnr => by simp [hround.unknown n hnr] at hk
    rw [hround.around_eq hnr (fun x hx => hx)]
    exact hround.fair.full n e (hbelow n hn hnr) hk
  · have hmem : n ∈ f.active.map Prod.fst := List.mem_map.2 ⟨(n, c), mem_of_lookup ha, rfl⟩
    exact (Chart.around_of_mem hmem).symm
  · exact (Chart.around_of_missing hi _).symm
  · exact (Chart.around_of_predicted hi (not_mem_of_lookup ha) hp).symm

/-- While an edge of a cycle is being unfolded, no edge that leads back to it becomes known.  So if the
edges below the cycle are harmless, the others are unfolded around those that are being unfolded. -/
theorem descend_around (k : Nat) (hfree : f.free ≤ k) (hdepths : ∀ q ∈ f.active, q.2 < depth)
    (hround : f.Around r) (hr : n = r ∨ f.active.lookup r ≠ none)
    (hn : ReflTransGen chart.Asks r n) :
    (f.descend k depth n).2.expansion = chart.around (f.active.map Prod.fst) n := by
  induction k generalizing f depth n with
  | zero =>
      cases h : f.answer? n with
      | none => exact absurd (free_pos h) (by omega)
      | some a =>
          rw [descend_of_answer? h]
          exact expansion_of_answer? hbelow hround hn h
  | succ k ih =>
      cases h : f.answer? n with
      | some a =>
          rw [descend_of_answer? h]
          exact expansion_of_answer? hbelow hround hn h
      | none =>
          obtain ⟨hk, ha, i, hi, hp⟩ := answer?_eq_none h
          by_cases hnr : ReflTransGen chart.Asks n r
          · have hr' : ((n, depth) :: f.active).lookup r ≠ none := by
              rw [List.lookup_cons]
              split
              · simp
              · next hne =>
                  exact hr.resolve_left (fun hnr => by simp [hnr] at hne)
            obtain ⟨f', lists, cut, hgathers, -, -, hends⟩ := descend_gathers
              depth (fun f' => f'.Fair ∧
                ∀ z, ReflTransGen chart.Asks z r → f'.known.lookup z = none)
              (fun m u => u.expansion = chart.around (n :: f.active.map Prod.fst) m) h hi hfree
              ⟨hround.fair.enter hk depth, hround.unknown⟩ (fun f' m hact hf' hasks hfree' => by
                have hdepths' := lt_succ_of_active hact hdepths
                have hround' : f'.Around r := by
                  refine ⟨hf'.1, fun q hq => ?_, hf'.2⟩
                  rw [hact] at hq
                  rcases List.mem_cons.1 hq with rfl | hq
                  · exact hnr
                  · exact hround.back q hq
                have hr'' : f'.active.lookup r ≠ none := by rwa [hact]
                have hfair := (descend_answered (n := m) k hfree' hf'.1 hdepths').fair
                have hback : ∀ z, ReflTransGen chart.Asks z r → ReflTransGen
                    (fun x y => chart.Asks x y ∧ ReflTransGen chart.Asks y r) z r := by
                  intro z hz
                  induction hz using ReflTransGen.head_induction_on with
                  | refl => exact .refl
                  | head hxy hy ih => exact .head ⟨hxy, hy⟩ ih
                have hblocked := descend_blocked (n := m) hback k hfree' hdepths' hr'' hf'.2
                have hexpansion := ih (n := m) hfree' hdepths' hround' (.inr hr'')
                  (hn.tail hasks)
                rw [hact] at hexpansion
                exact ⟨⟨hfair, hblocked.1⟩, hexpansion⟩)
            have hlists : lists = (chart.derivations n).flatMap
                (chart.contribution i (chart.around (n :: f.active.map Prod.fst))) :=
              (hgathers.upper (fun d _ m _ u hu => hu ▸ .refl _)).antisymm
                (hgathers.lower (show CutFrom 0 cut from fun c _ => Nat.zero_le c)
                  (fun d _ m _ u hu _ => hu ▸ .refl _))
            rw [Chart.around_eq hi (not_mem_of_lookup ha) hp, ← hlists]
            rcases hends with ⟨-, hends⟩ | ⟨c, -, -, hends⟩ <;> rw [hends]
          · -- an edge below the cycle is harmless, and it is not cut
            have hbounded := (descend_answered (n := n) (k + 1) hfree hround.fair hdepths).bounded
            rw [hround.around_eq hnr (fun x hx => hx)]
            refine (hbounded.upper (hbelow n hn hnr)).antisymm ?_
            have hlower := hbounded.lower 0 (fun c _ => Nat.zero_le c)
            rwa [hround.around_eq hnr (fun x hx => ?_)] at hlower
            obtain ⟨d, -, hd⟩ := mem_deepOf.1 hx
            exact List.mem_map.2 ⟨(x, d), hd, rfl⟩

/-- A fresh forest unfolds an edge into what there is around nothing, if what is below the cycles of the
edge is harmless. -/
theorem expand_new : ((new chart).expand r).2 = chart.around [] r := by
  rw [expand_eq_descend]
  exact descend_around hbelow chart.size (free_le_size _) (by simp [new])
    ⟨fair_new chart, by simp [new], fun z _ => rfl⟩ (.inl rfl) .refl

end Fresh

end Forest

end ChartParsing
