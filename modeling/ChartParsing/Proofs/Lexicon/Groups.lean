import ChartParsing.Proofs.Lexicon.Branches
import Mathlib.Data.List.Nodup

/-!
# Lexicons as trees

A lexicon's texts are grouped by their first characters, and the groups become the branches of a tree: `trie`.
The pattern of the lexicon is the pattern of this tree (**`pattern_eq`**), and the tree is fine.

On its way down the tree a text is cut behind each character that others share with it: `cuts`.

Main statement: **`mem_endsEach_trie`**.  The tree can end where one of the texts can, when each of the parts
that it is cut into is taken by itself.
-/

namespace ChartParsing.Lexicon

open Pattern

variable {list : List Text} {g : Group} {t r : Text} {first : Option Char} {x : Char} {depth : Nat}

/-! ### Groups -/

/-- What is known of the groups of some texts. -/
structure Grouped (gs : List Group) (list : List Text) : Prop where
  firsts : (gs.map Group.first).Nodup
  nodup : ∀ g ∈ gs, g.rests.Nodup
  ne_nil : ∀ g ∈ gs, g.rests ≠ []
  members : ∀ first r, (∃ g ∈ gs, g.first = first ∧ r ∈ g.rests) ↔
    ∃ t ∈ list, t.head? = first ∧ t.tail = r

theorem map_first_addToGroup (first : Option Char) (rest : Text) (gs : List Group) :
    (addToGroup first rest gs).map Group.first =
      gs.map Group.first ++ (if first ∈ gs.map Group.first then [] else [first]) := by
  induction gs with
  | nil => simp [addToGroup]
  | cons g gs ih =>
      unfold addToGroup
      by_cases hg : g.first = first
      · rw [if_pos hg]
        split <;> simp [hg]
      · rw [if_neg hg, List.map_cons, ih]
        simp [Ne.symm hg]

theorem forall_mem_addToGroup {P : List Text → Prop} {rest : Text} {gs : List Group}
    (hgs : ∀ g ∈ gs, P g.rests) (hone : P [rest])
    (hmore : ∀ rests, P rests → rests.contains rest = false → P (rests ++ [rest])) :
    ∀ g ∈ addToGroup first rest gs, P g.rests := by
  induction gs with
  | nil => simpa [addToGroup] using hone
  | cons g gs ih =>
      have hg := hgs g List.mem_cons_self
      have htail : ∀ g ∈ gs, P g.rests := fun g' hg' => hgs g' (List.mem_cons_of_mem g hg')
      unfold addToGroup
      by_cases hfirst : g.first = first
      · rw [if_pos hfirst]
        cases hcontains : g.rests.contains rest with
        | true =>
            rw [if_pos rfl]
            exact List.forall_mem_cons.2 ⟨hg, htail⟩
        | false =>
            rw [if_neg Bool.false_ne_true]
            exact List.forall_mem_cons.2 ⟨hmore _ hg hcontains, htail⟩
      · rw [if_neg hfirst]
        exact List.forall_mem_cons.2 ⟨hg, ih htail⟩

theorem mem_addToGroup {rest : Text} {gs : List Group} (first' : Option Char) (r : Text) :
    (∃ g ∈ addToGroup first rest gs, g.first = first' ∧ r ∈ g.rests) ↔
      (∃ g ∈ gs, g.first = first' ∧ r ∈ g.rests) ∨ (first' = first ∧ r = rest) := by
  induction gs with
  | nil => simp [addToGroup, eq_comm]
  | cons g gs ih =>
      unfold addToGroup
      by_cases hfirst : g.first = first
      · rw [if_pos hfirst]
        cases hcontains : g.rests.contains rest with
        | true =>
            rw [if_pos rfl]
            refine (or_iff_left_of_imp ?_).symm
            rintro ⟨rfl, rfl⟩
            exact ⟨g, List.mem_cons_self, hfirst, List.contains_iff_mem.1 hcontains⟩
        | false =>
            rw [if_neg Bool.false_ne_true, List.exists_mem_cons_iff, List.exists_mem_cons_iff]
            simp only [List.mem_append, List.mem_singleton, hfirst]
            rw [and_or_left, or_assoc, or_assoc]
            refine or_congr_right ?_
            rw [or_comm, eq_comm (a := first)]
      · rw [if_neg hfirst, List.exists_mem_cons_iff, List.exists_mem_cons_iff, ih, or_assoc]

theorem Grouped.add {gs : List Group} (h : Grouped gs list) (t : Text) :
    Grouped (addToGroup t.head? t.tail gs) (list ++ [t]) where
  firsts := by
    rw [map_first_addToGroup]
    by_cases hmem : t.head? ∈ gs.map Group.first
    · rw [if_pos hmem, List.append_nil]
      exact h.firsts
    · rw [if_neg hmem]
      exact List.nodup_append.2 ⟨h.firsts, List.nodup_singleton _, fun a ha b hb hab =>
        hmem (List.mem_singleton.1 hb ▸ hab ▸ ha)⟩
  nodup := forall_mem_addToGroup (P := List.Nodup) h.nodup (List.nodup_singleton _)
    (fun rests hrests hnew => List.nodup_append.2 ⟨hrests, List.nodup_singleton _, fun a ha b hb hab => by
      rw [List.mem_singleton.1 hb] at hab
      rw [hab, ← List.contains_iff_mem, hnew] at ha
      exact Bool.false_ne_true ha⟩)
  ne_nil := forall_mem_addToGroup (P := (· ≠ [])) h.ne_nil (by simp) (fun _ _ _ => by simp)
  members first r := by
    rw [mem_addToGroup, h.members]
    simp only [List.mem_append, List.mem_singleton, or_and_right, exists_or, exists_eq_left]
    rw [eq_comm (a := first), eq_comm (a := r)]

theorem grouped_foldl (list : List Text) :
    Grouped (list.foldl (fun gs t => addToGroup t.head? t.tail gs) []) list := by
  have hall : ∀ (more : List Text) {gs : List Group} {seen : List Text}, Grouped gs seen →
      Grouped (more.foldl (fun gs t => addToGroup t.head? t.tail gs) gs) (seen ++ more) := by
    intro more
    induction more with
    | nil => exact fun h => by rwa [List.append_nil]
    | cons t more ih =>
        intro gs seen h
        have hrest := ih (h.add t)
        rwa [List.append_assoc, List.singleton_append] at hrest
  have hempty : Grouped [] [] := ⟨List.nodup_nil, by simp, by simp, fun first r => by simp⟩
  exact hall list hempty

/-- Putting the group of the empty text last changes nothing else. -/
theorem grouped_groups (list : List Text) : Grouped (groups list) list := by
  have h := grouped_foldl list
  have hperm : (groups list).Perm (list.foldl (fun gs t => addToGroup t.head? t.tail gs) []) := by
    have hnone : (fun g : Group => g.first.isNone) = fun g => !g.first.isSome :=
      funext fun g => by cases g.first <;> rfl
    unfold groups
    rw [hnone]
    exact List.filter_append_perm _ _
  refine ⟨(hperm.map _).nodup_iff.2 h.firsts, fun g hg => h.nodup g (hperm.mem_iff.1 hg),
    fun g hg => h.ne_nil g (hperm.mem_iff.1 hg), fun first r => ?_⟩
  rw [← h.members]
  simp only [hperm.mem_iff]

/-- The group of the empty text comes last. -/
theorem pairwise_groups (list : List Text) : (groups list).Pairwise (fun g g' =>
    g.first ≠ g'.first ∧ (g.first = none → g'.first = none)) := by
  have hfirsts := List.pairwise_map.1 (grouped_groups list).firsts
  refine hfirsts.and ?_
  unfold groups
  refine List.pairwise_append.2 ⟨?_, ?_, fun g hg g' hg' _ => ?_⟩
  · refine List.pairwise_of_forall_mem_list (fun g hg g' _ hnone => ?_)
    simp [hnone] at hg
  · refine List.pairwise_of_forall_mem_list (fun g _ g' hg' _ => ?_)
    simpa using (List.mem_filter.1 hg').2
  · simpa using (List.mem_filter.1 hg').2

theorem rests_iff (hg : g ∈ groups list) :
    r ∈ g.rests ↔ ∃ t ∈ list, t.head? = g.first ∧ t.tail = r := by
  rw [← (grouped_groups list).members]
  constructor
  · exact fun hr => ⟨g, hg, rfl, hr⟩
  · rintro ⟨g', hg', hfirst, hr⟩
    have heq : g' = g :=
      List.inj_on_of_nodup_map (grouped_groups list).firsts hg' hg hfirst
    rwa [← heq]

theorem exists_group (ht : t ∈ list) : ∃ g ∈ groups list, g.first = t.head? ∧ t.tail ∈ g.rests :=
  ((grouped_groups list).members t.head? t.tail).2 ⟨t, ht, rfl, rfl⟩

theorem groups_ne_nil (h : list ≠ []) : groups list ≠ [] := by
  obtain ⟨t, ht⟩ := List.exists_mem_of_ne_nil list h
  obtain ⟨g, hg, -⟩ := exists_group ht
  exact List.ne_nil_of_mem hg

/-- Nothing is left of the empty text. -/
theorem rests_of_none (hg : g ∈ groups list) (hfirst : g.first = none) : g.rests = [[]] := by
  have hall : ∀ r ∈ g.rests, r = [] := fun r hr => by
    obtain ⟨t, -, hhead, rfl⟩ := (rests_iff hg).1 hr
    rw [hfirst, List.head?_eq_none_iff] at hhead
    rw [hhead, List.tail_nil]
  have hnodup := (grouped_groups list).nodup g hg
  match hrests : g.rests with
  | [] => exact absurd hrests ((grouped_groups list).ne_nil g hg)
  | [r] => rw [hall r (by simp [hrests])]
  | r :: r' :: rest =>
      rw [hrests] at hnodup hall
      rw [hall r (by simp), hall r' (by simp)] at hnodup
      simp at hnodup

/-- A group with a character holds what is left of the texts that start with it. -/
theorem rests_of_some (hg : g ∈ groups list) (hfirst : g.first = some x) : r ∈ g.rests ↔ x :: r ∈ list := by
  rw [rests_iff hg, hfirst]
  constructor
  · rintro ⟨t, ht, hhead, rfl⟩
    obtain ⟨rest, rfl⟩ := List.head?_eq_some_iff.1 hhead
    exact ht
  · exact fun hmem => ⟨x :: r, hmem, rfl, rfl⟩

/-! ### Trees -/

/-- The branch of a group; what is left of its texts becomes a tree of its own, if there is a choice. -/
def branchOf (subtree : List Text → List Branch) (g : Group) : Branch :=
  match g.rests with
  | [] => .leaf (pieces g.first.toList)
  | [rest] => .leaf (pieces g.first.toList ++ pieces rest)
  | rests => .fork (pieces g.first.toList) (subtree rests)

/-- The tree of texts that have fewer than `depth` characters. -/
def trie : Nat → List Text → List Branch
  | 0, _ => []
  | depth + 1, list => (groups list).map (branchOf (trie depth))

/-- **The pattern of texts** is the pattern of their tree. -/
theorem tree_eq (depth : Nat) (list : List Text) :
    tree escape depth list = Branch.writeAll (trie depth list) := by
  induction depth generalizing list with
  | zero => rfl
  | succ depth ih =>
      rw [← Branch.intercalate_writeEach, Branch.writeEach_eq_map, trie, tree, List.map_map]
      refine congrArg _ (List.map_congr_left (fun g _ => ?_))
      obtain ⟨first, rests⟩ := g
      match rests with
      | [] =>
          show escape first.toList ++ [] = (pieces first.toList).flatMap Piece.write
          rw [escape_eq, List.append_nil]
      | [rest] =>
          show escape first.toList ++ escape rest = (pieces first.toList ++ pieces rest).flatMap Piece.write
          rw [escape_eq, escape_eq, List.flatMap_append]
      | r :: r' :: rests =>
          show escape first.toList ++ ("(?:".toList ++ tree escape depth (r :: r' :: rests) ++ [')']) = _
          rw [escape_eq, ih, ← Branch.intercalate_writeEach]
          rfl

/-- The piece of one character. -/
def pieceOf (c : Char) : Piece := if c = '-' then .hyphen else if c = ' ' then .space else .char c

theorem pieces_singleton (c : Char) : pieces [c] = [pieceOf c] := by
  unfold pieceOf
  by_cases hhyphen : c = '-'
  · subst hhyphen
    rfl
  · have hone : hyphenated false [] [c] = [.char c] := by
      unfold hyphenated
      rw [if_neg hhyphen]
      cases isBlank c <;> simp [hyphenated]
    rw [if_neg hhyphen, pieces, hone, spaced]
    by_cases hspace : c = ' '
    · subst hspace
      rfl
    · rw [if_neg (fun h => hspace (Piece.char.inj h)), if_neg hspace]
      rfl

theorem pieceOf_injective : Function.Injective pieceOf := by
  intro c d h
  unfold pieceOf at h
  split at h <;> split at h <;> (try split at h) <;> (try split at h) <;> simp_all

/-- A branch starts with the piece of the group's character. -/
theorem first_branchOf (hg : g ∈ groups list) (subtree : List Text → List Branch) :
    (branchOf subtree g).first = g.first.map pieceOf := by
  cases hfirst : g.first with
  | none =>
      unfold branchOf
      rw [rests_of_none hg hfirst, hfirst]
      rfl
  | some x =>
      have hpieces : pieces (some x).toList = [pieceOf x] := pieces_singleton x
      unfold branchOf
      rw [hfirst, hpieces]
      split <;> rfl

theorem nodup_first_trie (depth : Nat) (list : List Text) :
    ((trie depth list).map Branch.first).Nodup := by
  cases depth with
  | zero => exact List.nodup_nil
  | succ depth =>
      have hmap : (trie (depth + 1) list).map Branch.first =
          ((groups list).map Group.first).map (Option.map pieceOf) := by
        rw [trie, List.map_map, List.map_map]
        exact List.map_congr_left (fun g hg => first_branchOf hg _)
      rw [hmap]
      exact (grouped_groups list).firsts.map (Option.map_injective pieceOf_injective)

/-- There is room for the tree. -/
def Fits (depth : Nat) (list : List Text) : Prop := ∀ t ∈ list, t.length < depth

theorem fits_rests (h : Fits (depth + 1) list) (hg : g ∈ groups list) (hfirst : g.first = some x) :
    Fits depth g.rests := by
  intro r hr
  have hless := h (x :: r) ((rests_of_some hg hfirst).1 hr)
  rw [List.length_cons] at hless
  omega

theorem trie_ne_nil (h : Fits depth list) (hne : list ≠ []) : trie depth list ≠ [] := by
  cases depth with
  | zero =>
      obtain ⟨t, ht⟩ := List.exists_mem_of_ne_nil list hne
      exact absurd (h t ht) (Nat.not_lt_zero _)
  | succ depth => exact fun hnil => groups_ne_nil hne (List.map_eq_nil_iff.1 hnil)

/-- **The tree is fine.** -/
theorem fineEach_trie (h : Fits depth list) : Branch.FineEach (trie depth list) := by
  induction depth generalizing list with
  | zero => exact trivial
  | succ depth ih =>
      rw [Branch.fineEach_iff]
      intro b hb
      obtain ⟨g, hg, rfl⟩ := List.mem_map.1 hb
      unfold branchOf
      split
      · exact trivial
      · exact trivial
      · next hnil hone =>
          cases hfirst : g.first with
          | none => exact absurd (rests_of_none hg hfirst) (hone [])
          | some x =>
              have hfits := fits_rests h hg hfirst
              refine ⟨?_, trie_ne_nil hfits hnil, nodup_first_trie _ _, ih hfits⟩
              rw [show (some x).toList = [x] from rfl, pieces_singleton]
              simp

/-! ### Cuts -/

/-- What is left of the texts that start with a character. -/
def tailsOf (x : Char) (list : List Text) : List Text :=
  (list.filter (fun t => t.head? = some x)).map List.tail

theorem mem_tailsOf : r ∈ tailsOf x list ↔ x :: r ∈ list := by
  simp only [tailsOf, List.mem_map, List.mem_filter, decide_eq_true_iff]
  constructor
  · rintro ⟨t, ⟨ht, hhead⟩, rfl⟩
    obtain ⟨rest, rfl⟩ := List.head?_eq_some_iff.1 hhead
    exact ht
  · exact fun hmem => ⟨x :: r, ⟨hmem, rfl⟩, rfl⟩

/-- The parts that a text is cut into by the tree of a list: it is cut behind its first character, and what
is left is cut in the same way if other texts of the list start with this character, too. -/
def cuts (list : List Text) : Text → List Text
  | [] => []
  | x :: rest =>
      [x] :: if (tailsOf x list).all (· = rest) then [rest] else cuts (tailsOf x list) rest

/-- The order of the list does not matter, nor does it matter how often a text stands there. -/
theorem cuts_congr {list' : List Text} (h : ∀ t, t ∈ list ↔ t ∈ list') (e : Text) :
    cuts list e = cuts list' e := by
  induction e generalizing list list' with
  | nil => rfl
  | cons x rest ih =>
      have htails : ∀ t, t ∈ tailsOf x list ↔ t ∈ tailsOf x list' := fun t => by
        rw [mem_tailsOf, mem_tailsOf, h]
      have hall : (tailsOf x list).all (· = rest) = (tailsOf x list').all (· = rest) := by
        rw [Bool.eq_iff_iff, List.all_eq_true, List.all_eq_true]
        simp only [htails]
      rw [cuts, cuts, hall, ih htails]

/-- The pieces of a text, each part taken by itself. -/
def cutPieces (list : List Text) (e : Text) : List Piece := (cuts list e).flatMap pieces

theorem rowEnds_append (ps qs : List Piece) (c : Cursor) :
    Branch.rowEnds (ps ++ qs) c = (Branch.rowEnds ps c).flatMap (Branch.rowEnds qs) := by
  rw [Branch.rowEnds, List.flatMap_append, Node.endsAll_append]
  rfl

theorem mem_rests_iff_tailsOf (hg : g ∈ groups list) (hfirst : g.first = some x) :
    r ∈ g.rests ↔ r ∈ tailsOf x list := by
  rw [rests_of_some hg hfirst, mem_tailsOf]

/-- What is left of the only text that starts with a character is not cut. -/
theorem cutPieces_single (hg : g ∈ groups list) (hfirst : g.first = some x) (hone : g.rests = [r]) :
    cutPieces list (x :: r) = pieces [x] ++ pieces r := by
  have hall : (tailsOf x list).all (· = r) = true := by
    simp only [List.all_eq_true, decide_eq_true_iff, ← mem_rests_iff_tailsOf hg hfirst, hone,
      List.mem_singleton]
    exact fun r hr => hr
  rw [cutPieces, cuts, if_pos hall]
  simp

/-- What is left of several texts is cut among themselves. -/
theorem cutPieces_many (hg : g ∈ groups list) (hfirst : g.first = some x) (hmany : ∀ r, g.rests ≠ [r])
    (r : Text) : cutPieces list (x :: r) = pieces [x] ++ cutPieces g.rests r := by
  have hnot : ¬ (tailsOf x list).all (· = r) = true := by
    simp only [List.all_eq_true, decide_eq_true_iff, ← mem_rests_iff_tailsOf hg hfirst]
    intro hall
    have hnodup := (grouped_groups list).nodup g hg
    rcases hrests : g.rests with _ | ⟨r₁, _ | ⟨r₂, rest⟩⟩
    · exact (grouped_groups list).ne_nil g hg hrests
    · exact hmany r₁ hrests
    · rw [hrests] at hnodup hall
      rw [hall r₁ (by simp), hall r₂ (by simp)] at hnodup
      simp at hnodup
  rw [cutPieces, cuts, if_neg hnot, List.flatMap_cons,
    cuts_congr (fun t => (mem_rests_iff_tailsOf hg hfirst).symm) r]
  rfl

/-- A branch can end where one of the texts of its group can. -/
theorem mem_ends_branchOf {subtree : List Text → List Branch} {c c' : Cursor} (hg : g ∈ groups list)
    (hsubtree : ∀ x, g.first = some x → ∀ d, c' ∈ Branch.endsEach (subtree g.rests) d ↔
      ∃ r ∈ g.rests, c' ∈ Branch.rowEnds (cutPieces g.rests r) d) :
    c' ∈ (branchOf subtree g).ends c ↔
      ∃ t ∈ list, t.head? = g.first ∧ c' ∈ Branch.rowEnds (cutPieces list t) c := by
  cases hfirst : g.first with
  | none =>
      have hrests := rests_of_none hg hfirst
      have hmem : ([] : Text) ∈ list := by
        obtain ⟨t, ht, hhead, -⟩ := (rests_iff hg).1 (by rw [hrests]; exact List.mem_singleton_self [])
        rw [hfirst, List.head?_eq_none_iff] at hhead
        rwa [← hhead]
      unfold branchOf
      rw [hrests, hfirst]
      constructor
      · exact fun hc => ⟨[], hmem, rfl, hc⟩
      · rintro ⟨t, -, hhead, hc⟩
        obtain rfl := List.head?_eq_none_iff.1 hhead
        exact hc
  | some x =>
      have htexts : (∃ t ∈ list, t.head? = some x ∧ c' ∈ Branch.rowEnds (cutPieces list t) c) ↔
          ∃ r ∈ g.rests, c' ∈ Branch.rowEnds (cutPieces list (x :: r)) c := by
        simp only [rests_of_some hg hfirst]
        constructor
        · rintro ⟨t, ht, hhead, hc⟩
          obtain ⟨r, rfl⟩ := List.head?_eq_some_iff.1 hhead
          exact ⟨r, ht, hc⟩
        · exact fun ⟨r, hr, hc⟩ => ⟨x :: r, hr, rfl, hc⟩
      rw [htexts]
      unfold branchOf
      rw [hfirst, show (some x).toList = [x] from rfl]
      split
      · next hnil => exact absurd hnil ((grouped_groups list).ne_nil g hg)
      · next rest hone =>
          simp only [hone, List.mem_singleton, exists_eq_left, cutPieces_single hg hfirst hone]
          rfl
      · next hnil hmany =>
          simp only [cutPieces_many hg hfirst hmany, rowEnds_append, Branch.ends, List.mem_flatMap, hsubtree x hfirst]
          constructor
          · rintro ⟨d, hd, r, hr, hc⟩
            exact ⟨r, hr, d, hd, hc⟩
          · rintro ⟨r, hr, d, hd, hc⟩
            exact ⟨d, hd, r, hr, hc⟩

/-- **The tree can end where one of its texts can**, each part taken by itself. -/
theorem mem_endsEach_trie {c c' : Cursor} (h : Fits depth list) :
    c' ∈ Branch.endsEach (trie depth list) c ↔
      ∃ t ∈ list, c' ∈ Branch.rowEnds (cutPieces list t) c := by
  induction depth generalizing list c with
  | zero =>
      constructor
      · exact fun hc => absurd hc List.not_mem_nil
      · rintro ⟨t, ht, -⟩
        exact absurd (h t ht) (Nat.not_lt_zero _)
  | succ depth ih =>
      have hbranch (g : Group) (hg : g ∈ groups list) : c' ∈ (branchOf (trie depth) g).ends c ↔
          ∃ t ∈ list, t.head? = g.first ∧ c' ∈ Branch.rowEnds (cutPieces list t) c :=
        mem_ends_branchOf hg (fun x hfirst d => ih (fits_rests h hg hfirst))
      rw [Branch.endsEach_eq_flatMap, trie, List.flatMap_map, List.mem_flatMap]
      constructor
      · rintro ⟨g, hg, hc⟩
        obtain ⟨t, ht, -, hc⟩ := (hbranch g hg).1 hc
        exact ⟨t, ht, hc⟩
      · rintro ⟨t, ht, hc⟩
        obtain ⟨g, hg, hfirst, -⟩ := exists_group ht
        exact ⟨g, hg, (hbranch g hg).2 ⟨t, ht, hfirst.symm, hc⟩⟩

/-- The length of the longest text makes room enough. -/
theorem fits_longest (list : List Text) : Fits (longest list + 1) list := by
  have hall : ∀ (list : List Text) (n : Nat), n ≤ list.foldl (fun n t => max n t.length) n ∧
      ∀ t ∈ list, t.length ≤ list.foldl (fun n t => max n t.length) n := by
    intro list
    induction list with
    | nil => exact fun n => ⟨Nat.le_refl n, by simp⟩
    | cons s rest ih =>
        intro n
        obtain ⟨hle, hmem⟩ := ih (max n s.length)
        refine ⟨Nat.le_trans (Nat.le_max_left _ _) hle, fun t ht => ?_⟩
        rcases List.mem_cons.1 ht with rfl | ht
        · exact Nat.le_trans (Nat.le_max_right _ _) hle
        · exact hmem t ht
  exact fun t ht => Nat.lt_succ_of_le ((hall list 0).2 t ht)

/-- **The pattern of a lexicon** is the pattern of its tree. -/
theorem pattern_eq (list : List Text) :
    pattern escape list = Branch.writeAll (trie (longest list + 1) list) := tree_eq _ list

end ChartParsing.Lexicon
