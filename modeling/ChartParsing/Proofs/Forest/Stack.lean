import ChartParsing.Proofs.Forest.Descent
import ChartParsing.Proofs.Forest.Requests
import Mathlib.Data.Nat.Find
import Mathlib.Logic.Function.Iterate

/-!
# The stack of frames

While an edge is being unfolded there is one frame for each edge on the way down to it, and the forest
lists these edges as active.  `Unfolding.Stacked` says so, and every step of the work keeps it: an edge
gets a frame only if it is not active, and it stops being active when its frame ends.

Derivations that lead back to their own edge are cut, but what was found under a cut is not kept and may
have to be found again.  So neither what is known nor the number of edges seen gets anywhere with every
step.  What bounds the work is that the frames are of different edges (`run_visit`).

Main statement: **`expand_ends`**.  On every chart and after any earlier requests the work on an edge ends,
the stack is in order all the way, and nothing is active when it is over.
-/

namespace ChartParsing

variable {rules : Array Rule}

/-! ### Frames that stay what they are -/

namespace Frame

variable (chart : Chart rules) (f : Frame rules) (u : Unfolded)

@[simp] theorem edge_receive : (f.receive u).edge = f.edge := by
  unfold receive
  dsimp only
  split <;> rfl

@[simp] theorem depth_receive : (f.receive u).depth = f.depth := by
  unfold receive
  dsimp only
  split <;> rfl

theorem go_keeps (bases : Option (List Arguments)) (found : List Arguments)
    (ds : List Derivation) :
    (advance.go chart f bases found ds).1.edge = f.edge ∧
      (advance.go chart f bases found ds).1.depth = f.depth := by
  induction ds generalizing bases found with
  | nil => exact ⟨rfl, rfl⟩
  | cons d ds ih =>
      obtain ⟨base, child, texts⟩ := d
      cases base with
      | none => exact ih bases found
      | some base =>
          cases bases with
          | none => exact ⟨rfl, rfl⟩
          | some lists =>
              cases texts with
              | some texts => exact ih none _
              | none =>
                  cases child with
                  | some child => exact ⟨rfl, rfl⟩
                  | none => exact ih none found

@[simp] theorem edge_advance : (f.advance chart).1.edge = f.edge :=
  (go_keeps chart f f.bases f.found f.pending).1

@[simp] theorem depth_advance : (f.advance chart).1.depth = f.depth :=
  (go_keeps chart f f.bases f.found f.pending).2

end Frame

namespace Unfolding

variable {chart : Chart rules} {w : Unfolding chart}

/-- The stack is in order. -/
structure Stacked (w : Unfolding chart) : Prop where
  /-- The active edges are those of the frames, with the depths of the frames. -/
  active : w.forest.active = w.stack.map (fun f => (f.edge, f.depth))
  /-- The frames are of different edges. -/
  nodup : (w.stack.map Frame.edge).Nodup
  /-- They are of edges of the chart. -/
  lt_size : ∀ f ∈ w.stack, f.edge < chart.size
  /-- The depth of a frame is the number of frames below it. -/
  depths : w.stack.map Frame.depth = (List.range w.stack.length).reverse

/-- There are no more frames than edges. -/
theorem Stacked.length_le (h : w.Stacked) : w.stack.length ≤ chart.size := by
  have hsub : w.stack.map Frame.edge ⊆ List.range chart.size := by
    intro n hn
    obtain ⟨f, hf, rfl⟩ := List.mem_map.1 hn
    exact List.mem_range.2 (h.lt_size f hf)
  simpa using (List.subperm_of_subset h.nodup hsub).length_le

/-- An edge is active exactly if it has a frame. -/
theorem Stacked.lookup_eq_none (h : w.Stacked) {n : Nat} :
    w.forest.active.lookup n = none ↔ n ∉ w.stack.map Frame.edge := by
  rw [h.active, List.lookup_eq_none_iff, List.forall_mem_map, List.mem_map, not_exists]
  refine forall_congr' (fun f => ?_)
  rw [not_and, bne_iff_ne]
  exact imp_congr_right (fun _ => ne_comm)

variable {f : Forest chart} {stack : List (Frame rules)} {last : Option Unfolded}

/-- The derivations that are left to a frame have nothing to do with it. -/
theorem Stacked.replace {top top' : Frame rules} {rest : List (Frame rules)}
    (h : Stacked ⟨f, top :: rest, last⟩) (hedge : top'.edge = top.edge)
    (hdepth : top'.depth = top.depth) : Stacked (⟨f, top' :: rest, last⟩ : Unfolding chart) where
  active := by
    rw [h.active]
    simp [hedge, hdepth]
  nodup := by simpa [hedge] using h.nodup
  lt_size := by
    intro x hx
    rcases List.mem_cons.1 hx with rfl | hx
    · rw [hedge]
      exact h.lt_size top List.mem_cons_self
    · exact h.lt_size x (List.mem_cons_of_mem _ hx)
  depths := by simpa [hdepth] using h.depths

/-- The innermost frame has all others below it. -/
theorem Stacked.depth_eq {top : Frame rules} {rest : List (Frame rules)}
    (h : Stacked ⟨f, top :: rest, last⟩) : top.depth = rest.length := by
  have hdepths := h.depths
  simp only [List.map_cons, List.length_cons, List.range_succ, List.reverse_append,
    List.reverse_cons, List.reverse_nil, List.nil_append, List.cons_append] at hdepths
  exact (List.cons_eq_cons.1 hdepths).1

/-- Turning to an edge puts a frame on the stack only if the edge has none. -/
theorem Stacked.visit (h : Stacked ⟨f, stack, last⟩) (n : Nat) :
    (f.visit stack n stack.length).Stacked := by
  cases ha : f.answer? n with
  | some a =>
      rw [Forest.visit_of_answer? ha]
      have hactive := Forest.active_of_answer? ha
      exact ⟨hactive.trans h.active, h.nodup, h.lt_size, h.depths⟩
  | none =>
      obtain ⟨-, hnone, i, hi, -⟩ := Forest.answer?_eq_none ha
      rw [Forest.visit_of_item ha hi]
      have hfresh : n ∉ stack.map Frame.edge := h.lookup_eq_none.1 hnone
      refine ⟨?_, ?_, ?_, ?_⟩
      · simp only [List.map_cons]
        rw [h.active]
      · exact List.nodup_cons.2 ⟨hfresh, h.nodup⟩
      · intro x hx
        rcases List.mem_cons.1 hx with rfl | hx
        · exact Chart.lt_size_of_item? hi
        · exact h.lt_size x hx
      · have hdepths := h.depths
        simp only [List.map_cons, List.length_cons, List.range_succ, List.reverse_append,
          List.reverse_cons, List.reverse_nil, List.nil_append, List.cons_append]
        rw [hdepths]

/-- When a frame ends its edge is not active any more, and all others still are. -/
theorem Stacked.finish {top : Frame rules} {rest : List (Frame rules)}
    (h : Stacked ⟨f, top :: rest, last⟩) : (f.finish top rest).Stacked := by
  obtain ⟨hfresh, hnodup⟩ := List.nodup_cons.1 h.nodup
  have hactive : f.active.filter (fun p => p.1 ≠ top.edge) =
      rest.map (fun x => (x.edge, x.depth)) := by
    rw [h.active, List.map_cons, List.filter_cons_of_neg (by simp), List.filter_eq_self]
    intro p hp
    obtain ⟨x, hx, rfl⟩ := List.mem_map.1 hp
    have hne : x.edge ≠ top.edge := fun he => hfresh (he ▸ List.mem_map_of_mem hx)
    simpa using hne
  have hdepths : rest.map Frame.depth = (List.range rest.length).reverse := by
    have hall := h.depths
    simp only [List.map_cons, List.length_cons, List.range_succ, List.reverse_append,
      List.reverse_cons, List.reverse_nil, List.nil_append, List.cons_append] at hall
    exact (List.cons_eq_cons.1 hall).2
  have hlt : ∀ x ∈ rest, x.edge < chart.size :=
    fun x hx => h.lt_size x (List.mem_cons_of_mem _ hx)
  unfold Forest.finish
  dsimp only
  split <;> exact ⟨hactive, hnodup, hlt, hdepths⟩

/-- **Every step keeps the stack in order.** -/
theorem Stacked.step (h : w.Stacked) : w.step.Stacked := by
  obtain ⟨f, stack, last⟩ := w
  cases stack with
  | nil => exact h
  | cons top rest =>
      obtain ⟨taken, htaken, hedge, hdepth⟩ : ∃ taken : Frame rules,
          step ⟨f, top :: rest, last⟩ = resume f taken rest ∧ taken.edge = top.edge ∧
            taken.depth = top.depth := by
        cases last with
        | none => exact ⟨top, rfl, rfl, rfl⟩
        | some u => exact ⟨top.receive u, rfl, by simp, by simp⟩
      rw [htaken]
      have hs : Stacked ⟨f, (taken.advance chart).1 :: rest, last⟩ :=
        h.replace (by simp [hedge]) (by simp [hdepth])
      unfold resume
      cases hadvance : taken.advance chart with
      | mk top' next =>
          rw [hadvance] at hs
          cases next with
          | none => exact hs.finish
          | some n =>
              dsimp only
              rw [hs.depth_eq]
              exact hs.visit n

/-- What the work comes to after any number of steps. -/
theorem Stacked.iterate (h : w.Stacked) (k : Nat) : (Unfolding.step^[k] w).Stacked := by
  induction k with
  | zero => exact h
  | succ k ih =>
      rw [Function.iterate_succ_apply']
      exact ih.step

/-- With an empty stack there is nothing to do, so a run is as many steps as it may take. -/
theorem run_eq_iterate (w : Unfolding chart) (fuel : Nat) : w.run fuel = step^[fuel] w := by
  induction fuel generalizing w with
  | zero => rfl
  | succ fuel ih =>
      unfold run
      by_cases hs : w.stack.isEmpty = true
      · have hfix : step w = w := by
          unfold step
          rw [List.isEmpty_iff.1 hs]
        rw [if_pos hs, Function.iterate_fixed hfix]
      · rw [if_neg hs, ih]
        rfl

end Unfolding

namespace Forest

open Unfolding

variable {chart : Chart rules}

/-- Between requests nothing is being unfolded. -/
theorem active_askAll {f : Forest chart} (hactive : f.active = []) (requests : List Request) :
    (f.askAll requests).active = [] := by
  induction requests generalizing f with
  | nil => exact hactive
  | cons r rest ih =>
      refine ih (f := f.ask r) ?_
      rw [ask_eq, active_expand, hactive]

/-- Turning to the edge of a request begins with a stack in order. -/
theorem stacked_visit {f : Forest chart} (hactive : f.active = []) (n : Nat) :
    (f.visit [] n 0).Stacked := by
  have hempty : Stacked ⟨f, [], none⟩ := ⟨hactive, List.nodup_nil, by simp, rfl⟩
  exact hempty.visit n

/-- What the work on an edge has come to after this number of steps. -/
def workOn (f : Forest chart) (n k : Nat) : Unfolding chart := step^[k] (f.visit [] n 0)

/-- Once the stack is empty nothing happens any more. -/
theorem workOn_of_le {f : Forest chart} {n k l : Nat} (h : (f.workOn n k).stack = []) (hle : k ≤ l) :
    f.workOn n l = f.workOn n k := by
  have hfix : step (f.workOn n k) = f.workOn n k := by
    conv_lhs => unfold step
    rw [h]
  obtain ⟨more, rfl⟩ := Nat.exists_eq_add_of_le hle
  unfold workOn
  rw [Nat.add_comm, Function.iterate_add_apply]
  exact Function.iterate_fixed hfix more

/-- **Unfolding an edge ends**, on every chart, whatever leads back to what and whatever was asked earlier.
At every moment the frames are of different edges of the chart, so there are no more of them than edges,
and the active edges are those of the frames, with their depths.  At some moment, and not earlier, the stack
is empty; then nothing is active, and the answer is there. -/
theorem expand_ends (chart : Chart rules) (earlier : List Request) (n : Nat) :
    (∀ k, (((new chart).askAll earlier).workOn n k).Stacked ∧
      (((new chart).askAll earlier).workOn n k).stack.length ≤ chart.size) ∧
    ∃ k f u, ((new chart).askAll earlier).workOn n k = ⟨f, [], some u⟩ ∧
      (∀ l < k, (((new chart).askAll earlier).workOn n l).stack ≠ []) ∧
      f.active = [] ∧ ((new chart).askAll earlier).expand n = (f, u.expansion) := by
  have hactive : ((new chart).askAll earlier).active = [] := active_askAll rfl earlier
  generalize (new chart).askAll earlier = f at hactive ⊢
  have hstart := stacked_visit hactive n
  refine ⟨fun k => ⟨hstart.iterate k, (hstart.iterate k).length_le⟩, ?_⟩
  have hrun : f.workOn n (steps chart) =
      ⟨(f.descend chart.size 0 n).1, [], some (f.descend chart.size 0 n).2⟩ := by
    unfold workOn
    rw [← run_eq_iterate, run_visit]
  have hends : ∃ k, (f.workOn n k).stack = [] := ⟨steps chart, by rw [hrun]⟩
  classical
  have hfirst : f.workOn n (Nat.find hends) = f.workOn n (steps chart) :=
    (workOn_of_le (Nat.find_spec hends) (Nat.find_min' hends (by rw [hrun]))).symm
  refine ⟨Nat.find hends, _, _, hfirst.trans hrun, fun l hl => Nat.find_min hends hl, ?_,
    expand_eq_descend f n⟩
  have hafter := active_expand f n
  rw [expand_eq_descend] at hafter
  exact hafter.trans hactive

end Forest

end ChartParsing
