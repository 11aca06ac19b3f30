import ChartParsing.Proofs.Pattern.Ends
import ChartParsing.Proofs.Unicode.Membership

/-!
# Ends of patterns that are made

The functions that make sequences and choices rearrange what they are given.  The ends stay those of the
parts, in their order.

* **`Node.ends_joined`**: a sequence.
* **`Node.ends_either`**: a choice whose branches open differently, so that no common beginning is taken out
  of them.  How a pattern opens is its `Node.opening`: the first character, or the least count of a
  repetition.
-/

namespace ChartParsing

namespace CharSet

variable {s : CharSet} {x : Char}

theorem ordered_ofList_from (cs : List Char) (hs : s.Ordered) :
    (cs.foldl (fun s c => s.union (single c)) s).Ordered ∧
      ∀ x, (cs.foldl (fun s c => s.union (single c)) s).contains x = (s.contains x || cs.contains x) := by
  induction cs generalizing s with
  | nil => exact ⟨hs, fun x => by simp⟩
  | cons c cs ih =>
      have hsingle : (single c).Ordered := ⟨Nat.zero_le _, Nat.le_refl _, trivial⟩
      obtain ⟨hordered, hcontains⟩ := ih (ordered_union hs hsingle)
      refine ⟨hordered, fun x => ?_⟩
      rw [List.foldl_cons, hcontains, contains_union hs hsingle, contains_single, List.contains_cons,
        Bool.or_assoc]
      rfl

theorem contains_ofList (cs : List Char) (x : Char) : (ofList cs).contains x = cs.contains x :=
  ((ordered_ofList_from (s := empty) cs trivial).2 x).trans (by simp)

theorem ordered_ofList (cs : List Char) : (ofList cs).Ordered :=
  (ordered_ofList_from (s := empty) cs trivial).1

/-- The only character of a set that has characters is the only one that it contains. -/
theorem contains_of_only? {c : Char} (hs : s.Ordered) (hx : s.contains x = true)
    (h : s.only? = some c) (d : Char) : s.contains d = decide (d = c) := by
  unfold only? at h
  split at h
  · next a b hruns =>
      split at h
      · next hab =>
          subst hab
          have hmember : ∀ y, s.contains y = true ↔ y.toNat = a := fun y => by
            rw [contains_iff hs, hruns, covers_cons, or_iff_left covers_nil]
            omega
          have hc : c = x := by
            rw [← Option.some.inj h, ← (hmember x).1 hx, Char.ofNat_toNat]
          rw [Bool.eq_iff_iff, hmember, decide_eq_true_iff, hc, ← Char.toNat_inj, (hmember x).1 hx]
      · simp at h
  · simp at h

end CharSet

namespace Pattern.Node

variable {c : Cursor} {n x y : Node} {parts branches : List Node}

/-! ### Sequences -/

theorem charsEnds_append (cs ds : List Char) (c : Cursor) :
    charsEnds (cs ++ ds) c = (charsEnds cs c).flatMap (charsEnds ds) := by
  induction cs generalizing c with
  | nil => exact (List.flatMap_singleton _ _).symm
  | cons x cs ih =>
      rw [List.cons_append, charsEnds, charsEnds, List.flatMap_assoc]
      exact List.flatMap_congr (fun d _ => ih d)

theorem endsAll_append (xs ys : List Node) (c : Cursor) :
    endsAll (xs ++ ys) c = (endsAll xs c).flatMap (endsAll ys) := by
  induction xs generalizing c with
  | nil => exact (List.flatMap_singleton _ _).symm
  | cons x xs ih =>
      rw [List.cons_append, endsAll, endsAll, List.flatMap_assoc]
      exact List.flatMap_congr (fun d _ => ih d)

theorem endsAll_singleton (n : Node) (c : Cursor) : endsAll [n] c = n.ends c :=
  List.flatMap_singleton' _

theorem endsAll_partsOf (n : Node) (c : Cursor) : endsAll (partsOf n) c = n.ends c := by
  cases n <;> first | exact endsAll_singleton _ c | rfl

theorem endsAll_flatMap_partsOf (parts : List Node) (c : Cursor) :
    endsAll (parts.flatMap partsOf) c = endsAll parts c := by
  induction parts generalizing c with
  | nil => rfl
  | cons n rest ih =>
      rw [List.flatMap_cons, endsAll_append, endsAll_partsOf, endsAll]
      exact List.flatMap_congr (fun d _ => ih d)

/-- A literal in front of a sequence becomes one with the literal that this starts with. -/
theorem mergeLiterals_literal (cs : List Char) (rest : List Node) :
    (∃ ds more, mergeLiterals rest = .literal ds :: more ∧
        mergeLiterals (.literal cs :: rest) = .literal (cs ++ ds) :: more) ∨
      mergeLiterals (.literal cs :: rest) = .literal cs :: mergeLiterals rest := by
  rw [mergeLiterals]
  split
  · next ds more h => exact .inl ⟨ds, more, h, rfl⟩
  · exact .inr rfl

theorem endsAll_mergeLiterals (parts : List Node) (c : Cursor) :
    endsAll (mergeLiterals parts) c = endsAll parts c := by
  induction parts generalizing c with
  | nil => rfl
  | cons n rest ih =>
      have hskip : endsAll (n :: mergeLiterals rest) c = endsAll (n :: rest) c :=
        List.flatMap_congr (fun d _ => ih d)
      cases n with
      | literal cs =>
          rcases mergeLiterals_literal cs rest with ⟨ds, more, hrest, hmerged⟩ | hmerged
          · rw [hmerged, ← hskip, hrest, endsAll, endsAll, ends, ends, charsEnds_append,
              List.flatMap_assoc]
            rfl
          · rw [hmerged, hskip]
      | _ => exact hskip

/-- **The ends of a sequence** are those of its parts. -/
theorem ends_joined (parts : List Node) (c : Cursor) : (joined parts).ends c = endsAll parts c := by
  rw [← endsAll_flatMap_partsOf, ← endsAll_mergeLiterals]
  unfold joined
  split
  · next h => rw [h]; rfl
  · next n h => rw [h, endsAll_singleton]
  · rfl

theorem boundedAll_eq (parts : List Node) : boundedAll parts = parts.all bounded := by
  induction parts with
  | nil => rfl
  | cons n rest ih => rw [boundedAll, ih, List.all_cons]

theorem bounded_partsOf (n : Node) : (partsOf n).all bounded = n.bounded := by
  cases n <;> simp [partsOf, bounded, boundedAll_eq]

theorem bounded_mergeLiterals (parts : List Node) :
    (mergeLiterals parts).all bounded = parts.all bounded := by
  induction parts with
  | nil => rfl
  | cons n rest ih =>
      cases n with
      | literal cs =>
          rcases mergeLiterals_literal cs rest with ⟨ds, more, hrest, hmerged⟩ | hmerged
          · rw [hmerged, List.all_cons, List.all_cons, ← ih, hrest]
            rfl
          · rw [hmerged, List.all_cons, List.all_cons, ih]
      | _ =>
          rw [mergeLiterals, List.all_cons, List.all_cons, ih]
          simp

theorem bounded_joined (parts : List Node) : (joined parts).bounded = parts.all bounded := by
  have hall : (mergeLiterals (parts.flatMap partsOf)).all bounded = parts.all bounded := by
    rw [bounded_mergeLiterals, List.all_flatMap]
    exact congrArg _ (funext bounded_partsOf)
  rw [← hall]
  unfold joined
  split
  · next h => rw [h]; rfl
  · next n h => rw [h]; simp
  · next h _ => rw [bounded, boundedAll_eq]

/-! ### Openings -/

/-- How a pattern opens. -/
inductive Opening where
  | char (c : Char)
  | count (min : Nat)
deriving DecidableEq

/-- How a part opens by itself. -/
def opening? : Node → Option Opening
  | .literal (c :: _) => some (.char c)
  | .repetition min _ _ _ => some (.count min)
  | _ => none

/-- How a pattern opens: by its first part. -/
def opening (n : Node) : Option Opening := (partsOf n).head?.bind opening?

theorem opening?_eq_of_same (h : same x y = true) : opening? x = opening? y := by
  cases x <;> cases y <;> simp only [same, Bool.false_eq_true] at h <;> try rfl
  · rw [beq_iff_eq.1 h]
  · simp only [Bool.and_eq_true, beq_iff_eq] at h
    rw [opening?, opening?, h.1.1.1]

/-- A pattern by itself that opens in a definite way: a literal or a repetition. -/
def isOpener (n : Node) : Bool := n.opening?.isSome

theorem partsOf_of_isOpener (h : n.isOpener = true) : partsOf n = [n] := by
  cases n <;> first | rfl | simp [isOpener, opening?] at h

/-- A sequence opens as its first part does. -/
theorem exists_mergeLiterals (h : n.isOpener = true) (rest : List Node) : ∃ m more,
    mergeLiterals (n :: rest) = m :: more ∧ m.opening? = n.opening? := by
  cases n with
  | literal cs =>
      cases cs with
      | nil => simp [isOpener, opening?] at h
      | cons c cs =>
          rcases mergeLiterals_literal (c :: cs) rest with ⟨ds, more, -, hmerged⟩ | hmerged
          · exact ⟨_, _, hmerged, rfl⟩
          · exact ⟨_, _, hmerged, rfl⟩
  | repetition min max greedy body => exact ⟨_, _, rfl, rfl⟩
  | _ => simp [isOpener, opening?] at h

/-- A branch that a choice takes as it is: no choice and no set. -/
structure Plain (n : Node) : Prop where
  branches : branchesOf n = [n]
  members : members? n = none

theorem plain_of_isOpener (h : n.isOpener = true) : n.Plain := by
  cases n <;> first | exact ⟨rfl, rfl⟩ | simp [isOpener, opening?] at h

/-- **A sequence whose first part opens in a definite way** opens in the same way, and is no choice. -/
theorem joined_cons (h : n.isOpener = true) (rest : List Node) :
    (joined (n :: rest)).Plain ∧ (joined (n :: rest)).opening = n.opening? := by
  obtain ⟨m, more, hmerged, hopening⟩ := exists_mergeLiterals h (rest.flatMap partsOf)
  have hm : m.isOpener = true := by rwa [isOpener, hopening]
  have hjoined : mergeLiterals ((n :: rest).flatMap partsOf) = m :: more := by
    rw [List.flatMap_cons, partsOf_of_isOpener h]
    exact hmerged
  unfold joined
  rw [hjoined]
  cases more with
  | nil =>
      refine ⟨plain_of_isOpener hm, ?_⟩
      rw [opening, partsOf_of_isOpener hm, ← hopening]
      rfl
  | cons k more => exact ⟨⟨rfl, rfl⟩, hopening⟩

theorem joined_singleton (h : n.isOpener = true) : joined [n] = n := by
  have hn : mergeLiterals [n] = [n] := by cases n <;> rfl
  unfold joined
  rw [List.flatMap_singleton, partsOf_of_isOpener h, hn]

/-! ### Choices -/

theorem ends_class {s : CharSet} {x : Char} (hs : s.Ordered) (hx : s.contains x = true) (c : Cursor) :
    (Node.class s).ends c = c.taking s.contains := by
  unfold Node.class
  split
  · next d hd =>
      have hcontains : s.contains = fun y => decide (y = d) :=
        funext (CharSet.contains_of_only? hs hx hd)
      rw [ends, charsEnds, hcontains]
      exact List.flatMap_singleton' _
  · rfl

theorem endsAny_eq_flatMap (branches : List Node) (c : Cursor) :
    endsAny branches c = branches.flatMap (fun n => n.ends c) := by
  induction branches with
  | nil => rfl
  | cons n rest ih => rw [endsAny, ih, List.flatMap_cons]

/-- Branches that are single characters. -/
theorem eq_map_of_singleChar? {cs : List Char} (h : branches.mapM singleChar? = some cs) :
    branches = cs.map (fun c => .literal [c]) := by
  induction branches generalizing cs with
  | nil =>
      obtain rfl : [] = cs := by simpa using h
      rfl
  | cons n rest ih =>
      simp only [List.mapM_cons, Option.bind_eq_bind, Option.bind_eq_some_iff, Option.pure_def,
        Option.some.injEq] at h
      obtain ⟨d, hd, ds, hds, rfl⟩ := h
      rw [List.map_cons, ← ih hds]
      refine congrArg (· :: rest) ?_
      unfold singleChar? at hd
      split at hd
      · rw [Option.some.inj hd]
      · simp at hd

/-- Of different characters, at most one stands at a place. -/
theorem flatMap_taking {cs : List Char} (h : cs.Nodup) (c : Cursor) :
    cs.flatMap (fun d => c.taking (· = d)) = c.taking cs.contains := by
  unfold Cursor.taking
  cases c.rest with
  | nil => simp
  | cons x xs =>
      dsimp only
      induction cs with
      | nil => rfl
      | cons d ds ih =>
          obtain ⟨hd, hds⟩ := List.nodup_cons.1 h
          rw [List.flatMap_cons, ih hds, List.contains_cons]
          by_cases hx : x = d
          · subst hx
            have hnot : ds.contains x = false := by simpa using hd
            simp [hd]
          · simp [hx]

/-- Nothing is taken out of sequences of which one opens differently from the first. -/
theorem sharedLength_eq_zero {xs ys : List Node} {others : List (List Node)} (hys : ys ∈ others)
    (h : xs.head?.bind opening? ≠ ys.head?.bind opening?) : sharedLength (xs :: others) = 0 := by
  have hcommon : commonLength xs ys = 0 := by
    cases xs with
    | nil => rfl
    | cons x xs =>
        cases ys with
        | nil => rfl
        | cons y ys =>
            unfold commonLength
            rw [if_neg (fun hsame => h (opening?_eq_of_same hsame))]
  have hfold : ∀ (others : List (List Node)) (n : Nat), n = 0 ∨ ys ∈ others →
      others.foldl (fun n parts => min n (commonLength xs parts)) n = 0 := by
    intro others
    induction others with
    | nil => exact fun n hn => hn.resolve_right (List.not_mem_nil)
    | cons zs rest ih =>
        intro n hn
        refine ih _ ?_
        rcases hn with rfl | hmem
        · exact .inl (Nat.zero_min _)
        · rcases List.mem_cons.1 hmem with rfl | hmem
          · exact .inl (by dsimp only; rw [hcommon, Nat.min_zero])
          · exact .inr hmem
  exact hfold others _ (.inr hys)

theorem opening_of_sequence? {xs : List Node} (h : sequence? n = some xs) :
    xs.head?.bind opening? = n.opening := by
  cases n with
  | concat parts =>
      obtain rfl := Option.some.inj h
      rfl
  | _ => simp [sequence?] at h

/-- A choice between plain branches that open differently is a class of characters or the choice between
the branches. -/
theorem either_eq (hplain : ∀ n ∈ branches, n.Plain) (hopening : (branches.map opening).Nodup) :
    (∃ n, branches = [n] ∧ either branches = n) ∨
      (∃ cs, branches = cs.map (fun c => .literal [c]) ∧ cs ≠ [] ∧
        either branches = Node.class (CharSet.ofList cs)) ∨
      (branches = [] ∧ either branches = .set CharSet.empty) ∨ either branches = .alternation branches := by
  have hflat : branches.flatMap branchesOf = branches := by
    rw [List.flatMap_congr (fun n hn => (hplain n hn).branches), List.flatMap_singleton']
  unfold either
  generalize branches.foldl (fun total n => total + (partsOf n).length) 1 = lifts
  unfold eitherOf
  rw [hflat]
  cases branches with
  | nil => exact .inr (.inr (.inl ⟨rfl, rfl⟩))
  | cons first others =>
      cases others with
      | nil => exact .inl ⟨first, rfl, rfl⟩
      | cons second others =>
          refine .inr ?_
          dsimp only
          cases hchars : (first :: second :: others).mapM singleChar? with
          | some cs =>
              have heq := eq_map_of_singleChar? hchars
              refine .inl ⟨cs, heq, ?_, rfl⟩
              rintro rfl
              simp at heq
          | none =>
              refine .inr (.inr ?_)
              have hsets : (first :: second :: others).mapM members? = none := by
                simp [List.mapM_cons, (hplain first List.mem_cons_self).members]
              rw [hsets]
              dsimp only
              split
              · next sequences hsequences =>
                  simp only [List.mapM_cons, Option.bind_eq_bind, Option.bind_eq_some_iff,
                    Option.pure_def, Option.some.injEq] at hsequences
                  obtain ⟨xs, hxs, _, ⟨ys, hys, zs, -, rfl⟩, rfl⟩ := hsequences
                  have hne : xs.head?.bind opening? ≠ ys.head?.bind opening? := by
                    rw [opening_of_sequence? hxs, opening_of_sequence? hys]
                    intro heq
                    simp [heq] at hopening
                  rw [if_pos (sharedLength_eq_zero List.mem_cons_self hne)]
              · rfl

/-- **The ends of a choice** between plain branches that open differently are those of the branches. -/
theorem ends_either (hplain : ∀ n ∈ branches, n.Plain) (hopening : (branches.map opening).Nodup)
    (c : Cursor) : (either branches).ends c = branches.flatMap (fun n => n.ends c) := by
  rcases either_eq hplain hopening with ⟨n, rfl, heq⟩ | ⟨cs, rfl, hne, heq⟩ | ⟨rfl, heq⟩ | heq
  · rw [heq]
    simp
  · have hnodup : cs.Nodup := by
      have hmap : (cs.map (fun c => Node.literal [c])).map opening = cs.map (fun c => some (.char c)) := by
        rw [List.map_map]
        rfl
      rw [hmap] at hopening
      exact hopening.of_map _
    obtain ⟨x, hx⟩ := List.exists_mem_of_ne_nil cs hne
    have hmember : (CharSet.ofList cs).contains x = true := by
      rw [CharSet.contains_ofList]
      exact List.contains_iff_mem.2 hx
    have hcontains : (CharSet.ofList cs).contains = cs.contains := funext (CharSet.contains_ofList cs)
    rw [heq, ends_class (CharSet.ordered_ofList cs) hmember, hcontains, ← flatMap_taking hnodup,
      List.flatMap_map]
    refine List.flatMap_congr (fun d _ => ?_)
    exact (List.flatMap_singleton' _).symm
  · rw [heq]
    unfold ends Cursor.taking
    cases c.rest <;> rfl
  · rw [heq, ends, endsAny_eq_flatMap]

theorem bounded_either (hplain : ∀ n ∈ branches, n.Plain) (hopening : (branches.map opening).Nodup)
    (h : ∀ n ∈ branches, n.bounded = true) : (either branches).bounded = true := by
  rcases either_eq hplain hopening with ⟨n, rfl, heq⟩ | ⟨cs, -, -, heq⟩ | ⟨-, heq⟩ | heq
  · rw [heq]
    exact h n List.mem_cons_self
  · rw [heq]
    unfold Node.class
    split <;> rfl
  · rw [heq]
    rfl
  · rw [heq, bounded, boundedAll_eq]
    exact List.all_eq_true.2 h

end Pattern.Node

end ChartParsing
