import ChartParsing.Parser
import ChartParsing.Proofs.Forest.Unfolding

/-!
# Requests to a forest

A forest answers one request after the other and keeps what it has found.  `Request` makes the requests
data, so that what was asked earlier is a list.

`Chart.Recursion` says what edges unfold into without frames, depths and things known: by equations, one
for each kind of edge.  The equations bind only where nothing that an edge is made of leads back to
itself (`Chart.Unfoldable`), and there they leave no choice.

Main statement: **`expand_askAll`**.  Whatever was asked earlier, the answer is that of the recursion.
-/

namespace ChartParsing

open Relation

variable {rules : Array Rule}

/-! ### Asking a forest -/

/-- What a forest can be asked for. -/
inductive Request where
  /-- What an edge unfolds into. -/
  | expand (edge : Nat)
  /-- The readings of an edge. -/
  | results (edge : Nat)
deriving DecidableEq, Repr

/-- The edge that a request is about. -/
def Request.edge : Request → Nat
  | expand n => n
  | results n => n

namespace Forest

variable {chart : Chart rules}

/-- The forest after a request. -/
def ask (f : Forest chart) : Request → Forest chart
  | .expand n => (f.expand n).1
  | .results n => (f.results n).1

/-- The forest after several requests, one after the other. -/
def askAll (f : Forest chart) (requests : List Request) : Forest chart := requests.foldl ask f

theorem ask_eq (f : Forest chart) (r : Request) : f.ask r = (f.expand r.edge).1 := by
  cases r <;> rfl

end Forest

/-! ### The recursion -/

namespace Chart

variable {c : Chart rules} {n m : Nat} {i : Item rules} {d : Derivation} {unfold : Nat → Expansion}

/-- No edge that this one is made of leads back to itself, along the derivations that count. -/
def Unfoldable (c : Chart rules) (n : Nat) : Prop :=
  ∀ m, ReflTransGen c.Needs n m → ¬ TransGen c.Needs m m

theorem Unfoldable.needs (h : c.Unfoldable n) (hm : c.Needs n m) : c.Unfoldable m :=
  fun k hk => h k (.head hm hk)

theorem Unfoldable.shallow (h : c.Unfoldable n) : Shallow c.Needs c.size n :=
  shallow_of_acyclic (fun _ _ _ hmk => hmk.lt_size) h

/-- Where no links lead back to an edge everything can be unfolded. -/
theorem unfoldable_of_acyclic (h : ∀ n, ¬ TransGen c.Links n n) (n : Nat) : c.Unfoldable n :=
  fun m _ hm => h m (hm.lift id (fun _ _ hk => hk.links))

/-- Where the texts of a terminal start that was put behind an open edge: where that edge stops, or where
the item starts if the open edge could stop anywhere. -/
def leafStart (c : Chart rules) (i : Item rules) (base : Nat) : Position :=
  match c.item? base with
  | none => i.start
  | some o => if o.stop = .anywhere then i.start else o.stop

/-- The readings that a derivation puts behind the arguments of its open edge. -/
def lastReadings (c : Chart rules) (unfold : Nat → Expansion) (i : Item rules) (base : Nat)
    (d : Derivation) : List Reading :=
  match d.texts, d.child with
  | some texts, _ => texts.map (fun text => .leaf text (c.leafStart i base) i.stop)
  | none, some child => (unfold child).toReadings
  | none, none => []

/-- The lists of arguments of one derivation: each list of the open edge, extended by each reading of what
was put behind it.  Without an open edge there are none. -/
def extensions (c : Chart rules) (unfold : Nat → Expansion) (i : Item rules) (d : Derivation) :
    List Arguments :=
  match d.base with
  | none => []
  | some base => (unfold base).toArguments.flatMap (fun args =>
      (c.lastReadings unfold i base d).map (fun r => args ++ [r]))

/-- What edges unfold into, by recursion along the derivations that count. -/
structure Recursion (c : Chart rules) (unfold : Nat → Expansion) : Prop where
  /-- There is nothing where there is no edge. -/
  missing : ∀ n, c.item? n = none → unfold n = .arguments []
  /-- With the dot in front there is the empty list of arguments. -/
  opened : ∀ n i, c.item? n = some i → i.dot = 0 → i.isReduced = false →
    unfold n = .arguments [[]]
  /-- An empty rule is applied to it. -/
  emptied : ∀ n i, c.item? n = some i → i.dot = 0 → i.isReduced = true →
    unfold n = .readings
      [Arguments.apply [] i.rule.action i.rule.weight i.lhs i.start i.stop]
  /-- An open edge has the lists of its derivations, one derivation after the other. -/
  extended : ∀ n i, c.Unfoldable n → c.item? n = some i → i.dot ≠ 0 → i.isReduced = false →
    unfold n = .arguments ((c.derivations n).flatMap (c.extensions unfold i))
  /-- In a finished one the rule is applied to each of them. -/
  applied : ∀ n i, c.Unfoldable n → c.item? n = some i → i.dot ≠ 0 → i.isReduced = true →
    unfold n = .readings (((c.derivations n).flatMap (c.extensions unfold i)).map
      (fun args => args.apply i.rule.action i.rule.weight i.lhs i.start i.stop))

theorem leaves_eq {base : Nat} {o : Item rules} (ho : c.item? base = some o) (i : Item rules)
    (texts : List String) :
    i.leaves o texts = texts.map (fun text => .leaf text (c.leafStart i base) i.stop) := by
  have hstart : o.stop.orElse i.start = c.leafStart i base := by
    unfold leafStart
    rw [ho]
    cases hs : o.stop <;> simp [Position.orElse, hs]
  unfold Item.leaves
  rw [hstart]

/-- The lists of a derivation are what it contributes, if nothing is made of edges that are not there. -/
theorem contribution_eq_extensions (hmissing : ∀ n, c.item? n = none → unfold n = .arguments [])
    (i : Item rules) (d : Derivation) : c.contribution i unfold d = c.extensions unfold i d := by
  obtain ⟨base, child, texts⟩ := d
  cases base with
  | none => rfl
  | some base =>
      cases texts with
      | some texts =>
          cases ho : c.item? base with
          | none => simp [contribution, extensions, hmissing base ho, Arguments.product,
              Expansion.toArguments]
          | some o =>
              simp only [contribution, extensions, ho, leaves_eq ho]
              rfl
      | none =>
          cases child with
          | some child => rfl
          | none => simp [contribution, extensions, lastReadings]

theorem unfolded_of_missing (h : c.item? n = none) : c.unfolded n = .arguments [] := by
  unfold unfolded unfoldTo
  rw [h]

theorem unfolded_of_predicted (hi : c.item? n = some i) (hdot : i.dot = 0) :
    c.unfolded n = i.expansion [[]] := by
  unfold unfolded unfoldTo
  rw [hi]
  exact if_pos (decide_eq_true hdot)

theorem unfolded_of_unfoldable (h : c.Unfoldable n) (hi : c.item? n = some i) (hdot : i.dot ≠ 0) :
    c.unfolded n = i.expansion ((c.derivations n).flatMap (c.extensions c.unfolded i)) := by
  have hlists : c.contribution i c.unfolded = c.extensions c.unfolded i :=
    funext (contribution_eq_extensions (fun m hm => unfolded_of_missing hm) i)
  rw [unfolded_eq h.shallow hi, hlists]
  exact if_neg (by simpa [Item.isPredicted] using hdot)

/-- The equations have a solution. -/
theorem recursion_unfolded (c : Chart rules) : c.Recursion c.unfolded where
  missing := fun _ => unfolded_of_missing
  opened n i hi hdot hopen := by
    rw [unfolded_of_predicted hi hdot]
    exact if_neg (Bool.eq_false_iff.1 hopen)
  emptied n i hi hdot hreduced := by
    rw [unfolded_of_predicted hi hdot]
    exact if_pos hreduced
  extended n i h hi hdot hopen := by
    rw [unfolded_of_unfoldable h hi hdot]
    exact if_neg (Bool.eq_false_iff.1 hopen)
  applied n i h hi hdot hreduced := by
    rw [unfolded_of_unfoldable h hi hdot]
    exact if_pos hreduced

/-- By the equations an edge unfolds into the lists of its derivations. -/
theorem Recursion.eq_expansion (h : c.Recursion unfold) (hn : c.Unfoldable n)
    (hi : c.item? n = some i) (hdot : i.dot ≠ 0) :
    unfold n = i.expansion ((c.derivations n).flatMap (c.extensions unfold i)) := by
  unfold Item.expansion
  by_cases hr : i.isReduced = true
  · rw [if_pos hr]
    exact h.applied n i hn hi hdot hr
  · rw [if_neg hr]
    exact h.extended n i hn hi hdot (Bool.eq_false_iff.2 hr)

/-- **The equations have one solution**, where they bind. -/
theorem Recursion.eq_unfolded (h : c.Recursion unfold) (hn : c.Unfoldable n) :
    unfold n = c.unfolded n := by
  refine hn.shallow.induction (P := fun n => c.Unfoldable n → unfold n = c.unfolded n) ?_ hn
  intro n ih hn
  cases hi : c.item? n with
  | none => rw [h.missing n hi, unfolded_of_missing hi]
  | some i =>
      by_cases hdot : i.dot = 0
      · rw [unfolded_of_predicted hi hdot]
        unfold Item.expansion
        by_cases hr : i.isReduced = true
        · rw [if_pos hr]
          exact h.emptied n i hi hdot hr
        · rw [if_neg hr]
          exact h.opened n i hi hdot (Bool.eq_false_iff.2 hr)
      · rw [h.eq_expansion hn hi hdot, unfolded_of_unfoldable hn hi hdot]
        congr 1
        refine List.flatMap_congr (fun d hd => ?_)
        rw [← contribution_eq_extensions h.missing,
          ← contribution_eq_extensions (fun _ => unfolded_of_missing)]
        exact contribution_congr (fun m hm => ih m ⟨d, hd, hm⟩ (hn.needs ⟨d, hd, hm⟩))

end Chart

/-! ### The answers -/

namespace Forest

variable {chart : Chart rules} {f : Forest chart} {requests : List Request}

/-- Requests leave a forest that is right, with nothing being unfolded. -/
theorem right_askAll (hright : f.Right) (hactive : f.active = [])
    (h : ∀ r ∈ requests, chart.Unfoldable r.edge) :
    (f.askAll requests).Right ∧ (f.askAll requests).active = [] := by
  induction requests generalizing f with
  | nil => exact ⟨hright, hactive⟩
  | cons r rest ih =>
      have hr : chart.Unfoldable r.edge := h r List.mem_cons_self
      obtain ⟨-, hright', hactive'⟩ := expand_eq hright hactive hr.shallow
      show ((f.ask r).askAll rest).Right ∧ ((f.ask r).askAll rest).active = []
      rw [ask_eq]
      exact ih hright' hactive' (fun x hx => h x (List.mem_cons_of_mem _ hx))

/-- **The work on the stack is the recursion.**  If nothing that the edges asked for are made of leads back
to itself, then after any earlier requests an edge unfolds into what the recursion says; and there is
something that it says. -/
theorem expand_askAll (chart : Chart rules) (earlier : List Request) (n : Nat)
    (hearlier : ∀ r ∈ earlier, chart.Unfoldable r.edge) (hn : chart.Unfoldable n) :
    (∃ unfold, chart.Recursion unfold) ∧ ∀ unfold, chart.Recursion unfold →
      (((new chart).askAll earlier).expand n).2 = unfold n ∧
        (((new chart).askAll earlier).results n).2 = (unfold n).toReadings := by
  obtain ⟨hright, hactive⟩ := right_askAll (right_new chart) rfl hearlier
  have hexpand := (expand_eq hright hactive hn.shallow).1
  refine ⟨⟨chart.unfolded, chart.recursion_unfolded⟩, fun unfold h => ?_⟩
  rw [h.eq_unfolded hn]
  refine ⟨hexpand, ?_⟩
  show (((new chart).askAll earlier).expand n).2.toReadings = _
  rw [hexpand]

/-- A text of any number of equal letters, which can be put together in many ways. -/
def heaps : Grammar :=
  ⟨#[(Rule.of "S" [.nonterminal "S", .nonterminal "S"]).withEntity true, .of "S" [.literal "a"]]⟩

/-- Of four letters the edges of the shorter heaps are shared.  They were asked for earlier, some of them
twice. -/
theorem expand_askAll_heaps :
    ∃ chart : Chart heaps.rules,
      chart = ((Parser.new heaps .topDown .skippingBlanks).parse ['a', 'a', 'a', 'a']).1.chart ∧
      (∀ r ∈ [Request.results 14, .expand 17, .results 14, .results 21], chart.Unfoldable r.edge) ∧
      chart.Unfoldable 23 ∧
      (∃ unfold, chart.Recursion unfold) ∧ ∀ unfold, chart.Recursion unfold →
        (((new chart).askAll [.results 14, .expand 17, .results 14, .results 21]).expand 23).2 =
            unfold 23 ∧
          (((new chart).askAll [.results 14, .expand 17, .results 14, .results 21]).results 23).2 =
            (unfold 23).toReadings := by
  have hacyclic := Chart.acyclic_iff.2 (by decide +kernel : ∀ n < ((Parser.new heaps .topDown
    .skippingBlanks).parse ['a', 'a', 'a', 'a']).1.chart.size, (((Parser.new heaps .topDown
      .skippingBlanks).parse ['a', 'a', 'a', 'a']).1.chart.within [n]).contains n = false)
  have hall := Chart.unfoldable_of_acyclic hacyclic
  exact ⟨_, rfl, fun r _ => hall r.edge, hall 23, expand_askAll _ _ 23 (fun r _ => hall r.edge) (hall 23)⟩

end Forest

end ChartParsing
