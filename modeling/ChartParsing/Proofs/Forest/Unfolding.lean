import ChartParsing.Forest
import ChartParsing.Proofs.Chart.Links
import ChartParsing.Proofs.Chart.Preference

/-!
# What a forest unfolds

`Chart.unfolded` says by recursion along the derivations that count what an edge unfolds into.  Where no
chain of them leads back, the work on the stack of frames comes to the same.

* **`Chart.unfolded_eq`** is the equation of the recursion.
* **`visit_leads`** follows the work on one edge: it ends after a number of steps that the height of the
  edge bounds, with the frames below untouched and everything known that is said to be.
* **`resultsOfAll_eq`**: the readings of several edges are those of the recursion, one edge after the
  other.
-/

namespace ChartParsing

open Relation

variable {rules : Array Rule}

namespace Chart

variable {c : Chart rules} {n m h k : Nat} {i : Item rules} {d : Derivation}

/-! ### The recursion -/

/-- One of the derivations that count refers to the other edge. -/
def Needs (c : Chart rules) (n m : Nat) : Prop := ∃ d ∈ c.derivations n, m ∈ d.links

theorem Needs.links (h : c.Needs n m) : c.Links n m := by
  obtain ⟨d, hd, hm⟩ := h
  obtain ⟨e, he, hmem⟩ := exists_mem_of_mem_derivations hd
  exact links_iff.2 ⟨e, he, d, hmem, hm⟩

theorem Needs.lt_size (h : c.Needs n m) : n < c.size := by
  obtain ⟨e, he, -⟩ := links_iff.1 h.links
  exact lt_size_of_edge? he

/-- The lists of arguments that a derivation brings to an item, if edges unfold as given. -/
def contribution (c : Chart rules) (i : Item rules) (unfold : Nat → Expansion) (d : Derivation) :
    List Arguments :=
  match d.base with
  | none => []
  | some base =>
      match d.texts, d.child with
      | some texts, _ =>
          Arguments.product (unfold base).toArguments (match c.item? base with
            | some o => i.leaves o texts
            | none => [])
      | none, some child => Arguments.product (unfold base).toArguments (unfold child).toReadings
      | none, none => []

/-- What an edge unfolds into, along chains of derivations shorter than this. -/
def unfoldTo (c : Chart rules) : Nat → Nat → Expansion
  | 0, n => Forest.nothing c n
  | k + 1, n =>
      match c.item? n with
      | none => .arguments []
      | some i =>
          if i.isPredicted then i.expansion [[]]
          else i.expansion ((c.derivations n).flatMap (c.contribution i (c.unfoldTo k)))

/-- What an edge unfolds into. -/
def unfolded (c : Chart rules) (n : Nat) : Expansion := c.unfoldTo (c.size + 1) n

theorem contribution_congr {u v : Nat → Expansion} (h : ∀ m ∈ d.links, u m = v m) :
    c.contribution i u d = c.contribution i v d := by
  obtain ⟨base, child, texts⟩ := d
  cases base with
  | none => rfl
  | some base =>
      have hb : u base = v base := h base (by simp [Derivation.links])
      cases texts with
      | some texts => simp only [contribution, hb]
      | none =>
          cases child with
          | none => rfl
          | some child =>
              have hc : u child = v child := h child (by simp [Derivation.links])
              simp only [contribution, hb, hc]

/-- Longer chains than there are make no difference. -/
theorem unfoldTo_of_shallow (hs : Shallow c.Needs h n) (hk : h < k) :
    c.unfoldTo k n = c.unfoldTo (h + 1) n := by
  induction h generalizing n k with
  | zero =>
      obtain ⟨k, rfl⟩ : ∃ k', k = k' + 1 := ⟨k - 1, by omega⟩
      have hcongr (i : Item rules) : (c.derivations n).flatMap (c.contribution i (c.unfoldTo k)) =
          (c.derivations n).flatMap (c.contribution i (c.unfoldTo 0)) := by
        refine List.flatMap_congr (fun d hd => contribution_congr (fun m hm => ?_))
        exact absurd ⟨d, hd, hm⟩ (hs m)
      simp only [unfoldTo, hcongr]
  | succ h ih =>
      obtain ⟨k, rfl⟩ : ∃ k', k = k' + 1 := ⟨k - 1, by omega⟩
      have hcongr (i : Item rules) : (c.derivations n).flatMap (c.contribution i (c.unfoldTo k)) =
          (c.derivations n).flatMap (c.contribution i (c.unfoldTo (h + 1))) := by
        refine List.flatMap_congr (fun d hd => contribution_congr (fun m hm => ?_))
        exact ih (hs m ⟨d, hd, hm⟩) (by omega)
      simp only [unfoldTo, hcongr]

/-- **The equation of the recursion.** -/
theorem unfolded_eq (hs : Shallow c.Needs c.size n) (hi : c.item? n = some i) :
    c.unfolded n = if i.isPredicted then i.expansion [[]]
      else i.expansion ((c.derivations n).flatMap (c.contribution i c.unfolded)) := by
  have hcongr : (c.derivations n).flatMap (c.contribution i (c.unfoldTo c.size)) =
      (c.derivations n).flatMap (c.contribution i c.unfolded) := by
    refine List.flatMap_congr (fun d hd => contribution_congr (fun m hm => ?_))
    obtain ⟨h, hh⟩ : ∃ h, c.size = h + 1 := by
      have := lt_size_of_item? hi
      exact ⟨c.size - 1, by omega⟩
    rw [hh] at hs
    have hm' : Shallow c.Needs h m := hs m ⟨d, hd, hm⟩
    rw [unfolded, unfoldTo_of_shallow hm' (k := c.size) (by omega),
      unfoldTo_of_shallow hm' (k := c.size + 1) (by omega)]
  rw [← hcongr]
  simp only [unfolded, unfoldTo, hi]

end Chart

/-! ### The work on the stack -/

/-- Going through derivations overwrites what the frame had of them. -/
theorem Frame.go_eq (chart : Chart rules) (edge depth : Nat) (item : Item rules) (cut : Option Nat)
    (pending pending' : List Derivation) (bases bases' given : Option (List Arguments))
    (found found' lists : List Arguments) (ds : List Derivation) :
    Frame.advance.go chart ⟨edge, item, depth, pending, bases, found, cut⟩ given lists ds =
      Frame.advance.go chart ⟨edge, item, depth, pending', bases', found', cut⟩ given lists ds := by
  induction ds generalizing given lists with
  | nil => rfl
  | cons d ds ih =>
      obtain ⟨base, child, texts⟩ := d
      cases base with
      | none => exact ih given lists
      | some base =>
          cases given with
          | none => rfl
          | some known =>
              cases texts with
              | some texts => exact ih none _
              | none =>
                  cases child with
                  | some child => rfl
                  | none => exact ih none lists

namespace Unfolding

variable {chart : Chart rules} {w w' w'' : Unfolding chart} {k l : Nat}

/-- The first state comes to the second one in this number of steps. -/
def Leads (k : Nat) (w w' : Unfolding chart) : Prop := ∀ fuel, run (k + fuel) w = run fuel w'

theorem Leads.refl (w : Unfolding chart) : Leads 0 w w := by
  intro fuel
  rw [Nat.zero_add]

theorem Leads.trans (h : Leads k w w') (h' : Leads l w' w'') : Leads (k + l) w w'' := by
  intro fuel
  rw [Nat.add_assoc, h, h']

/-- The innermost frame goes on: it turns to another edge, or ends. -/
def resume (f : Forest chart) (top : Frame rules) (rest : List (Frame rules)) : Unfolding chart :=
  match top.advance chart with
  | (top, some n) => f.visit (top :: rest) n (top.depth + 1)
  | (top, none) => f.finish top rest

theorem resume_of_advance {f : Forest chart} {top top' : Frame rules} {rest : List (Frame rules)}
    (h : top.advance chart = top'.advance chart) : resume f top rest = resume f top' rest := by
  unfold resume
  rw [h]

/-- A derivation without an open edge is passed over. -/
theorem resume_skip (f : Forest chart) (edge depth : Nat) (i : Item rules) (cut : Option Nat)
    (child : Option Nat) (texts : Option (List String)) (ds : List Derivation)
    (found : List Arguments) (rest : List (Frame rules)) :
    resume f ⟨edge, i, depth, ⟨none, child, texts⟩ :: ds, none, found, cut⟩ rest =
      resume f ⟨edge, i, depth, ds, none, found, cut⟩ rest :=
  resume_of_advance (Frame.go_eq chart edge depth i cut _ _ none none none found found found ds)

/-- A derivation over a terminal ends as soon as its open edge is known. -/
theorem resume_texts (f : Forest chart) (edge depth base : Nat) (i : Item rules)
    (cut child : Option Nat) (texts : List String) (ds : List Derivation)
    (found lists : List Arguments) (rest : List (Frame rules)) :
    resume f ⟨edge, i, depth, ⟨some base, child, some texts⟩ :: ds, some lists, found, cut⟩ rest =
      resume f ⟨edge, i, depth, ds, none, found ++ Arguments.product lists
        (match chart.item? base with
          | some o => i.leaves o texts
          | none => []), cut⟩ rest :=
  resume_of_advance (Frame.go_eq chart edge depth i cut _ _ _ none none _ _ _ ds)

/-- A derivation over nothing adds nothing. -/
theorem resume_nothing (f : Forest chart) (edge depth base : Nat) (i : Item rules)
    (cut : Option Nat) (ds : List Derivation) (found lists : List Arguments)
    (rest : List (Frame rules)) :
    resume f ⟨edge, i, depth, ⟨some base, none, none⟩ :: ds, some lists, found, cut⟩ rest =
      resume f ⟨edge, i, depth, ds, none, found, cut⟩ rest :=
  resume_of_advance (Frame.go_eq chart edge depth i cut _ _ _ none none found found found ds)

/-- One step with something for the innermost frame to take. -/
theorem leads_receive (f : Forest chart) (top : Frame rules) (rest : List (Frame rules))
    (u : Unfolded) : Leads 1 ⟨f, top :: rest, some u⟩ (resume f (top.receive u) rest) := by
  intro fuel
  rw [Nat.add_comm]
  rfl

/-- One step of a frame that has just been put on the stack. -/
theorem leads_resume (f : Forest chart) (top : Frame rules) (rest : List (Frame rules)) :
    Leads 1 ⟨f, top :: rest, none⟩ (resume f top rest) := by
  intro fuel
  rw [Nat.add_comm]
  rfl

end Unfolding

namespace Forest

open Unfolding

variable {chart : Chart rules} {f f' : Forest chart} {n m h : Nat} {i : Item rules}

/-- What is known is right. -/
def Right (f : Forest chart) : Prop := ∀ n e, f.known.lookup n = some e → e = chart.unfolded n

/-- Nothing that the edge is made of is being unfolded. -/
def Clear (f : Forest chart) (n : Nat) : Prop :=
  ∀ m, ReflTransGen chart.Needs n m → f.active.lookup m = none

/-- Turning to an edge comes to what it unfolds into, in less than this number of steps. -/
def Answers (chart : Chart rules) (bound n : Nat) : Prop :=
  ∀ (f : Forest chart) (stack : List (Frame rules)) (depth : Nat), f.Right → f.Clear n →
    ∃ (k : Nat) (f' : Forest chart), k < bound ∧
      Leads k (f.visit stack n depth) ⟨f', stack, some ⟨chart.unfolded n, none⟩⟩ ∧
      f'.Right ∧ f'.active = f.active

/-- The work on one derivation, if the edges that it refers to answer. -/
theorem derivation_leads (i : Item rules) (edge depth : Nat) (found : List Arguments)
    (rest : List (Frame rules)) {bound : Nat} (d : Derivation) (ds : List Derivation)
    (hright : f.Right) (hanswers : ∀ m ∈ d.links, Answers chart bound m)
    (hclear : ∀ m ∈ d.links, f.Clear m) :
    ∃ (k : Nat) (f' : Forest chart), k ≤ 2 * bound ∧
      Leads k (resume f ⟨edge, i, depth, d :: ds, none, found, none⟩ rest)
        (resume f' ⟨edge, i, depth, ds, none,
          found ++ chart.contribution i chart.unfolded d, none⟩ rest) ∧
      f'.Right ∧ f'.active = f.active := by
  obtain ⟨base, child, texts⟩ := d
  cases base with
  | none =>
      refine ⟨0, f, Nat.zero_le _, ?_, hright, rfl⟩
      rw [resume_skip]
      show Leads 0 _ (resume f ⟨edge, i, depth, ds, none, found ++ [], none⟩ rest)
      rw [List.append_nil]
      exact Leads.refl _
  | some base =>
      have hmem : base ∈ (⟨some base, child, texts⟩ : Derivation).links := by
        simp [Derivation.links]
      obtain ⟨k₁, f₁, hk₁, hl₁, hr₁, ha₁⟩ := hanswers base hmem f
        (⟨edge, i, depth, ⟨some base, child, texts⟩ :: ds, none, found, none⟩ :: rest)
        (depth + 1) hright (hclear base hmem)
      have hstep₁ := hl₁.trans (leads_receive _ _ _ _)
      cases texts with
      | some texts =>
          refine ⟨k₁ + 1, f₁, by omega, ?_, hr₁, ha₁⟩
          have htexts := resume_texts f₁ edge depth base i none child texts ds found
            (chart.unfolded base).toArguments rest
          exact htexts ▸ hstep₁
      | none =>
          cases child with
          | none =>
              refine ⟨k₁ + 1, f₁, by omega, ?_, hr₁, ha₁⟩
              have hnothing := resume_nothing f₁ edge depth base i none ds found
                (chart.unfolded base).toArguments rest
              show Leads _ _ (resume f₁ ⟨edge, i, depth, ds, none, found ++ [], none⟩ rest)
              rw [List.append_nil]
              exact hnothing ▸ hstep₁
          | some child =>
              have hmem' : child ∈ (⟨some base, some child, none⟩ : Derivation).links := by
                simp [Derivation.links]
              have hclear₁ : f₁.Clear child := by
                intro k hk
                rw [ha₁]
                exact hclear child hmem' k hk
              obtain ⟨k₂, f₂, hk₂, hl₂, hr₂, ha₂⟩ := hanswers child hmem' f₁
                (⟨edge, i, depth, ⟨some base, some child, none⟩ :: ds,
                  some (chart.unfolded base).toArguments, found, none⟩ :: rest)
                (depth + 1) hr₁ hclear₁
              have hstep₂ := hl₂.trans (leads_receive _ _ _ _)
              exact ⟨k₁ + 1 + (k₂ + 1), f₂, by omega, hstep₁.trans hstep₂, hr₂, ha₂.trans ha₁⟩

/-- The work of one frame, if all edges that its derivations refer to answer. -/
theorem frame_leads (i : Item rules) (edge depth : Nat) (found : List Arguments)
    (rest : List (Frame rules)) {bound : Nat} {ds : List Derivation} (hright : f.Right)
    (hanswers : ∀ d ∈ ds, ∀ m ∈ d.links, Answers chart bound m)
    (hclear : ∀ d ∈ ds, ∀ m ∈ d.links, f.Clear m) :
    ∃ (k : Nat) (f' : Forest chart), k ≤ 2 * ds.length * bound ∧
      Leads k (resume f ⟨edge, i, depth, ds, none, found, none⟩ rest)
        (f'.finish ⟨edge, i, depth, [], none,
          found ++ ds.flatMap (chart.contribution i chart.unfolded), none⟩ rest) ∧
      f'.Right ∧ f'.active = f.active := by
  induction ds generalizing f found with
  | nil =>
      refine ⟨0, f, Nat.zero_le _, ?_, hright, rfl⟩
      rw [List.flatMap_nil, List.append_nil]
      exact Leads.refl _
  | cons d ds ih =>
      obtain ⟨k₁, f₁, hk₁, hl₁, hr₁, ha₁⟩ := derivation_leads i edge depth found rest d ds hright
        (hanswers d List.mem_cons_self) (hclear d List.mem_cons_self)
      have hclear₁ : ∀ d ∈ ds, ∀ m ∈ d.links, f₁.Clear m := by
        intro d' hd m hm k hk
        rw [ha₁]
        exact hclear d' (List.mem_cons_of_mem _ hd) m hm k hk
      obtain ⟨k₂, f₂, hk₂, hl₂, hr₂, ha₂⟩ :=
        ih (found ++ chart.contribution i chart.unfolded d) hr₁
          (fun d' hd => hanswers d' (List.mem_cons_of_mem _ hd)) hclear₁
      have hlen : 2 * (d :: ds).length * bound = 2 * ds.length * bound + 2 * bound := by
        rw [List.length_cons, Nat.mul_succ, Nat.add_mul]
      refine ⟨k₁ + k₂, f₂, by omega, ?_, hr₂, ha₂.trans ha₁⟩
      rw [List.flatMap_cons, ← List.append_assoc]
      exact hl₁.trans hl₂

theorem Answers.mono {bound bound' : Nat} (h : Answers chart bound n) (hle : bound ≤ bound') :
    Answers chart bound' n := by
  intro f stack depth hright hclear
  obtain ⟨k, f', hk, hl⟩ := h f stack depth hright hclear
  exact ⟨k, f', Nat.lt_of_lt_of_le hk hle, hl⟩

/-- How many derivations there are. -/
def derivationCount (chart : Chart rules) : Nat :=
  chart.edges.foldl (fun n e => n + e.derivations.length) 0

/-- What is learned of an edge is right. -/
theorem Right.learn (hright : f.Right) (n : Nat) (active : List (Nat × Nat)) :
    (⟨(n, chart.unfolded n) :: f.known, active⟩ : Forest chart).Right := by
  intro m e hm
  rw [List.lookup_cons] at hm
  split at hm
  · next hmn =>
      obtain rfl : m = n := by simpa using hmn
      exact (Option.some.inj hm).symm
  · exact hright m e hm

/-- Once an edge is being unfolded, nothing that it needs is made of it. -/
theorem Clear.enter (hclear : f.Clear n) (hs : Shallow chart.Needs h n) (depth : Nat)
    (hneeds : chart.Needs n m) :
    (⟨f.known, (n, depth) :: f.active⟩ : Forest chart).Clear m := by
  intro k hmk
  have hne : k ≠ n := by
    rintro rfl
    exact hs.irrefl (TransGen.head' hneeds hmk)
  show ((n, depth) :: f.active).lookup k = none
  rw [List.lookup_cons]
  split
  · next heq => exact absurd (by simpa using heq) hne
  · exact hclear k (.head hneeds hmk)

/-- When the frame of an edge ends, what it has found is learned of the edge. -/
theorem finish_eq (stack : List (Frame rules)) (depth : Nat) (lists : List Arguments)
    (hactive : f.active.lookup n = none) (ha : f'.active = (n, depth) :: f.active)
    (heq : chart.unfolded n = i.expansion lists) :
    f'.finish ⟨n, i, depth, [], none, lists, none⟩ stack =
      ⟨⟨(n, chart.unfolded n) :: f'.known, f.active⟩, stack, some ⟨chart.unfolded n, none⟩⟩ := by
  have hfilter : f'.active.filter (fun p => p.1 ≠ n) = f.active := by
    rw [ha, List.filter_cons_of_neg (by simp), List.filter_eq_self]
    intro p hp
    have hne : (n == p.1) = false := by
      simpa using List.lookup_eq_none_iff.1 hactive p hp
    rw [beq_eq_false_iff_ne] at hne
    exact decide_eq_true (Ne.symm hne)
  rw [heq]
  unfold finish
  dsimp only
  rw [hfilter]
  rfl

/-- An edge answers if those do that it needs. -/
theorem answers_of_needs (bound : Nat) (hs : Shallow chart.Needs chart.size n)
    (hanswers : ∀ m, chart.Needs n m → Answers chart bound m) :
    Answers chart (2 * derivationCount chart * bound + 2) n := by
  intro f stack depth hright hclear
  have hactive : f.active.lookup n = none := hclear n .refl
  cases hknown : f.known.lookup n with
  | some e =>
      refine ⟨0, f, by omega, ?_, hright, rfl⟩
      rw [← hright n e hknown]
      unfold visit
      rw [hknown]
      exact Leads.refl _
  | none =>
      cases hi : chart.item? n with
      | none =>
          refine ⟨0, f, by omega, ?_, hright, rfl⟩
          have he : chart.unfolded n = nothing chart n := by
            simp only [Chart.unfolded, Chart.unfoldTo, nothing, hi]
          rw [he]
          unfold visit
          rw [hknown, hactive, hi]
          exact Leads.refl _
      | some i =>
          have heq := Chart.unfolded_eq hs hi
          by_cases hp : i.isPredicted = true
          · rw [if_pos hp] at heq
            refine ⟨0, ⟨(n, chart.unfolded n) :: f.known, f.active⟩, by omega, ?_,
              hright.learn n _, rfl⟩
            unfold visit
            rw [hknown, hactive, hi]
            dsimp only
            rw [if_pos hp, heq]
            exact Leads.refl _
          · rw [if_neg hp] at heq
            have hstart : f.visit stack n depth =
                ⟨{ f with active := (n, depth) :: f.active },
                  ⟨n, i, depth, chart.derivations n, none, [], none⟩ :: stack, none⟩ := by
              unfold visit
              rw [hknown, hactive, hi]
              dsimp only
              rw [if_neg hp]
            obtain ⟨k, f', hk, hl, hr, ha⟩ := frame_leads i n depth [] stack
              (f := { f with active := (n, depth) :: f.active }) hright
              (fun d hd m hm => hanswers m ⟨d, hd, hm⟩)
              (fun d hd m hm => hclear.enter hs depth ⟨d, hd, hm⟩)
            rw [List.nil_append, finish_eq stack depth _ hactive ha heq] at hl
            have hbound : 2 * (chart.derivations n).length * bound ≤
                2 * derivationCount chart * bound :=
              Nat.mul_le_mul_right bound
                (Nat.mul_le_mul_left 2 (Chart.length_derivations_le chart n))
            refine ⟨1 + k, ⟨(n, chart.unfolded n) :: f'.known, f.active⟩, by omega, ?_,
              hr.learn n _, rfl⟩
            rw [hstart]
            exact (leads_resume _ _ _).trans hl

/-- The bound on the work on an edge grows enough from one height to the next. -/
theorem mul_pow_add_two_le (chart : Chart rules) (h : Nat) :
    2 * derivationCount chart * Nat.pow (2 * derivationCount chart + 2) h + 2 ≤
      Nat.pow (2 * derivationCount chart + 2) (h + 1) := by
  have hpos : 1 ≤ Nat.pow (2 * derivationCount chart + 2) h := Nat.one_le_pow _ _ (by omega)
  have hsucc : Nat.pow (2 * derivationCount chart + 2) (h + 1) =
      2 * derivationCount chart * Nat.pow (2 * derivationCount chart + 2) h +
        2 * Nat.pow (2 * derivationCount chart + 2) h := by
    rw [show Nat.pow (2 * derivationCount chart + 2) (h + 1) = _ from Nat.pow_succ _ _,
      Nat.mul_comm, Nat.add_mul]
    rfl
  omega

/-- **An edge answers** in a number of steps that its height bounds. -/
theorem answers_of_shallow (hs : Shallow chart.Needs h n) (hh : h ≤ chart.size) :
    Answers chart (Nat.pow (2 * derivationCount chart + 2) (h + 1)) n := by
  induction h generalizing n with
  | zero =>
      refine (answers_of_needs 0 (hs.mono hh) (fun m hm => absurd hm (hs m))).mono ?_
      rw [Nat.zero_add, show Nat.pow (2 * derivationCount chart + 2) 1 = _ from Nat.pow_one _]
      omega
  | succ h ih =>
      exact (answers_of_needs _ (hs.mono hh) (fun m hm => ih (hs m hm) (by omega))).mono
        (mul_pow_add_two_le chart (h + 1))

/-! ### Readings of edges -/

theorem expand_eq (hright : f.Right) (hactive : f.active = []) (hs : Shallow chart.Needs chart.size n) :
    (f.expand n).2 = chart.unfolded n ∧ (f.expand n).1.Right ∧ (f.expand n).1.active = [] := by
  have hclear : f.Clear n := by
    intro m _
    rw [hactive]
    rfl
  obtain ⟨k, f', hk, hl, hr, ha⟩ := answers_of_shallow hs (Nat.le_refl _) f [] 0 hright hclear
  have hle : k ≤ steps chart := by
    have hpow : Nat.pow (2 * derivationCount chart + 2) (chart.size + 1) ≤ steps chart :=
      Nat.pow_le_pow_right (by omega) (by omega)
    omega
  have hrun : (f.visit [] n 0).run (steps chart) = ⟨f', [], some ⟨chart.unfolded n, none⟩⟩ := by
    obtain ⟨fuel, hfuel⟩ := Nat.exists_eq_add_of_le hle
    rw [hfuel]
    refine (hl fuel).trans ?_
    cases fuel with
    | zero => rfl
    | succ fuel => rfl
  unfold expand
  rw [hrun]
  exact ⟨rfl, hr, ha.trans hactive⟩

/-- **The readings of several edges** are those of the recursion. -/
theorem resultsOfAll_eq {numbers : List Nat} (hright : f.Right) (hactive : f.active = [])
    (hs : ∀ n ∈ numbers, Shallow chart.Needs chart.size n) :
    f.resultsOfAll numbers = numbers.flatMap (fun n => (chart.unfolded n).toReadings) := by
  induction numbers generalizing f with
  | nil => rfl
  | cons n rest ih =>
      obtain ⟨he, hr, ha⟩ := expand_eq hright hactive (hs n List.mem_cons_self)
      have hrest := ih hr ha (fun m hm => hs m (List.mem_cons_of_mem _ hm))
      rw [List.flatMap_cons, ← hrest, ← he]
      rfl

theorem right_new (chart : Chart rules) : (new chart).Right := by
  intro n e h
  simp [new] at h

end Forest

end ChartParsing
