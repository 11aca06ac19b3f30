import ChartParsing.Proofs.Grammar.Loading
import ChartParsing.Proofs.Lexicon.Groups
import ChartParsing.Proofs.Terminal.Matches
import ChartParsing.Vocabulary

/-!
# Lexicons without hyphens and spaces

Escaping changes nothing about what a text without hyphens and spaces matches, however it is cut.  So the tree
of such texts can end behind each of them that stands at a place, and the places come in order, the farthest
one first (**`decreasing_endsEach_trie`**): behind a character there is only the branch of its own group, and
the empty text comes last.

Main statement: **`Vocabulary.entity_longest`**.  The symbol of a lexicon matches the longest of its texts.
-/

namespace ChartParsing.Lexicon

open Pattern

variable {list : List Text} {t e : Text} {c c' : Cursor} {depth : Nat}

/-! ### Rows of characters -/

theorem rowEnds_chars (e : Text) (c : Cursor) : Branch.rowEnds (e.map .char) c = charsEnds e c := by
  induction e generalizing c with
  | nil => rfl
  | cons x xs ih =>
      rw [List.map_cons, ← List.singleton_append, rowEnds_append, charsEnds]
      have hone : Branch.rowEnds [.char x] c = c.taking (· = x) := by
        rw [Branch.rowEnds, List.flatMap_singleton, Piece.nodes, Node.endsAll_singleton, Node.ends, charsEnds]
        exact List.flatMap_singleton' _
      rw [hone]
      exact List.flatMap_congr (fun d _ => ih d)

/-- A row of characters ends behind itself. -/
theorem rest_of_mem_charsEnds (h : c' ∈ charsEnds e c) :
    c.rest = e ++ c'.rest ∧ c'.offset = c.offset + Text.byteLength e := by
  induction e generalizing c with
  | nil =>
      obtain rfl := List.mem_singleton.1 h
      exact ⟨rfl, rfl⟩
  | cons x xs ih =>
      rw [charsEnds, List.mem_flatMap] at h
      obtain ⟨d, hd, hc⟩ := h
      obtain ⟨y, ys, hrest, hy, rfl⟩ := Cursor.mem_taking.1 hd
      obtain rfl := of_decide_eq_true hy
      obtain ⟨hxs, hoffset⟩ := ih hc
      dsimp only at hxs hoffset
      refine ⟨by rw [hrest, hxs, List.cons_append], ?_⟩
      rw [hoffset, Text.byteLength, Nat.add_assoc]

theorem exists_mem_charsEnds (h : e <+: c.rest) : ∃ c', c' ∈ charsEnds e c := by
  induction e generalizing c with
  | nil => exact ⟨c, List.mem_singleton_self c⟩
  | cons x xs ih =>
      obtain ⟨rest, hrest⟩ := h
      obtain ⟨c', hc'⟩ := ih (c := ⟨c.offset + x.utf8Size, some x, xs ++ rest⟩) (List.prefix_append xs rest)
      rw [charsEnds]
      exact ⟨c', List.mem_flatMap.2
        ⟨_, Cursor.mem_taking.2 ⟨x, _, hrest.symm, decide_eq_true rfl, rfl⟩, hc'⟩⟩

theorem length_taking_le (p : Char → Bool) (c : Cursor) : (c.taking p).length ≤ 1 := by
  unfold Cursor.taking
  split
  · split <;> simp
  · simp

/-- What holds of no place, and of the places that `f` finds from any one, holds if `f` starts from one at
most. -/
theorem flatMap_of_length_le {P : List Cursor → Prop} {f : Cursor → List Cursor} {cs : List Cursor}
    (h : cs.length ≤ 1) (hnil : P []) (hone : ∀ d, P (f d)) : P (cs.flatMap f) := by
  rcases cs with _ | ⟨d, _ | ⟨d', more⟩⟩
  · exact hnil
  · rw [List.flatMap_singleton]
    exact hone d
  · simp at h

theorem length_charsEnds_le (e : Text) (c : Cursor) : (charsEnds e c).length ≤ 1 := by
  induction e generalizing c with
  | nil => exact Nat.le_refl 1
  | cons x xs ih =>
      exact flatMap_of_length_le (P := fun cs => cs.length ≤ 1) (length_taking_le (· = x) c) (Nat.zero_le 1) ih

/-! ### Plain texts -/

/-- The texts have no hyphens and no spaces. -/
def Plain (list : List Text) : Prop := ∀ t ∈ list, ∀ x ∈ t, x ≠ '-' ∧ x ≠ ' '

theorem flatten_cuts (list : List Text) (t : Text) : (cuts list t).flatten = t := by
  induction t generalizing list with
  | nil => rfl
  | cons x rest ih =>
      rw [cuts]
      split
      · simp
      · rw [List.flatten_cons, ih, List.singleton_append]

/-- However a plain text is cut, its pieces are its characters. -/
theorem cutPieces_of_plain (h : ∀ x ∈ t, x ≠ '-' ∧ x ≠ ' ') (list : List Text) :
    cutPieces list t = t.map .char := by
  have hparts : ∀ part ∈ cuts list t, pieces part = part.map .char := fun part hpart =>
    pieces_of_plain (fun x hx => h x (flatten_cuts list t ▸ List.mem_flatten.2 ⟨part, hpart, hx⟩))
  rw [cutPieces, List.flatMap_congr hparts, List.flatMap_def, ← List.map_flatten, flatten_cuts]

/-- **The tree of plain texts** can end behind each of them that stands at the place. -/
theorem mem_endsEach_of_plain (hplain : Plain list) (hfits : Fits depth list) :
    c' ∈ Branch.endsEach (trie depth list) c ↔ ∃ t ∈ list, c' ∈ charsEnds t c := by
  rw [mem_endsEach_trie hfits]
  refine exists_congr (fun t => and_congr_right (fun ht => ?_))
  rw [cutPieces_of_plain (hplain t ht), rowEnds_chars]

/-- Farther places come first. -/
def Decreasing (cs : List Cursor) : Prop := cs.Pairwise (fun c d => d.offset ≤ c.offset)

theorem decreasing_of_length_le {cs : List Cursor} (h : cs.length ≤ 1) : Decreasing cs := by
  rcases cs with _ | ⟨c, _ | ⟨c', more⟩⟩
  · exact List.Pairwise.nil
  · exact List.pairwise_singleton _ c
  · simp at h

theorem plain_rests {g : Group} {x : Char} (h : Plain list) (hg : g ∈ groups list)
    (hfirst : g.first = some x) : Plain g.rests := fun r hr y hy =>
  h (x :: r) ((rests_of_some hg hfirst).1 hr) y (List.mem_cons_of_mem x hy)

/-- Where a branch can end, a text of its group stands. -/
theorem exists_of_mem_ends_branchOf {g : Group} (hplain : Plain list) (hfits : Fits (depth + 1) list)
    (hg : g ∈ groups list) (h : c' ∈ (branchOf (trie depth) g).ends c) :
    ∃ t ∈ list, t.head? = g.first ∧ c.rest = t ++ c'.rest ∧
      c'.offset = c.offset + Text.byteLength t := by
  obtain ⟨t, ht, hhead, hc⟩ := (mem_ends_branchOf hg
    (fun x hfirst d => mem_endsEach_trie (fits_rests hfits hg hfirst))).1 h
  rw [cutPieces_of_plain (hplain t ht), rowEnds_chars] at hc
  exact ⟨t, ht, hhead, rest_of_mem_charsEnds hc⟩

/-- A branch of the tree prefers what is longer, if the tree of what is left does. -/
theorem decreasing_branchOf {g : Group} (hplain : Plain list) (hg : g ∈ groups list)
    (hsubtree : ∀ x, g.first = some x → ∀ d, Decreasing (Branch.endsEach (trie depth g.rests) d)) :
    Decreasing ((branchOf (trie depth) g).ends c) := by
  cases hfirst : g.first with
  | none =>
      unfold branchOf
      rw [rests_of_none hg hfirst, hfirst]
      exact List.pairwise_singleton _ c
  | some x =>
      have hrests := plain_rests hplain hg hfirst
      have hone : pieces (some x).toList = [x].map .char := by
        obtain ⟨r, hr⟩ := List.exists_mem_of_ne_nil _ ((grouped_groups list).ne_nil g hg)
        have hx := hplain (x :: r) ((rests_of_some hg hfirst).1 hr) x List.mem_cons_self
        exact pieces_of_plain (fun y hy => List.mem_singleton.1 hy ▸ hx)
      unfold branchOf
      rw [hfirst, hone]
      split
      · rw [Branch.ends, rowEnds_chars]
        exact decreasing_of_length_le (length_charsEnds_le _ c)
      · next r hr =>
          have hrest := pieces_of_plain (hrests r (by rw [hr]; exact List.mem_singleton_self r))
          rw [Branch.ends, hrest, ← List.map_append, rowEnds_chars]
          exact decreasing_of_length_le (length_charsEnds_le _ c)
      · rw [Branch.ends, rowEnds_chars]
        exact flatMap_of_length_le (length_charsEnds_le [x] c) List.Pairwise.nil (hsubtree x hfirst)

/-- Of two groups one at most has a character that stands at the place; the other one is last. -/
theorem offset_le_of_groups {g g' : Group} (hplain : Plain list) (hfits : Fits (depth + 1) list)
    (hg : g ∈ groups list) (hg' : g' ∈ groups list) (hne : g.first ≠ g'.first)
    (hlast : g.first = none → g'.first = none) {a b : Cursor} (ha : a ∈ (branchOf (trie depth) g).ends c)
    (hb : b ∈ (branchOf (trie depth) g').ends c) : b.offset ≤ a.offset := by
  obtain ⟨t, -, hhead, hrest, hoffset⟩ := exists_of_mem_ends_branchOf hplain hfits hg ha
  obtain ⟨t', -, hhead', hrest', hoffset'⟩ := exists_of_mem_ends_branchOf hplain hfits hg' hb
  cases t' with
  | nil =>
      rw [hoffset, hoffset', Text.byteLength]
      omega
  | cons y ys =>
      cases t with
      | nil => exact absurd (hhead'.trans (hlast hhead.symm)) (by simp)
      | cons x xs =>
          rw [hrest, List.cons_append, List.cons_append] at hrest'
          rw [← hhead, ← hhead', (List.cons.inj hrest').1] at hne
          exact absurd rfl hne

/-- **The tree of plain texts prefers what is longer.** -/
theorem decreasing_endsEach_trie (hplain : Plain list) (hfits : Fits depth list) (c : Cursor) :
    Decreasing (Branch.endsEach (trie depth list) c) := by
  induction depth generalizing list c with
  | zero => exact List.Pairwise.nil
  | succ depth ih =>
      rw [Branch.endsEach_eq_flatMap, trie, List.flatMap_map]
      refine List.pairwise_flatMap.2 ⟨fun g hg => decreasing_branchOf hplain hg (fun x hfirst d =>
        ih (plain_rests hplain hg hfirst) (fits_rests hfits hg hfirst) d), ?_⟩
      refine (List.Pairwise.and_mem.1 (pairwise_groups list)).imp ?_
      rintro g g' ⟨hg, hg', hne, hlast⟩ a ha b hb
      exact offset_le_of_groups hplain hfits hg hg' hne hlast ha hb

theorem length_le_of_byteLength_le {s t rest : Text} (hs : s <+: rest) (ht : t <+: rest)
    (h : Text.byteLength s ≤ Text.byteLength t) : s.length ≤ t.length := by
  rcases List.prefix_or_prefix_of_prefix hs ht with hst | ⟨more, rfl⟩
  · exact hst.length_le
  · cases more with
    | nil => simp
    | cons x xs =>
        have hx := Char.utf8Size_pos x
        rw [Text.byteLength_append, Text.byteLength] at h
        omega

/-- **The pattern of plain texts** matches the longest one that stands at the place. -/
theorem matchAt?_of_plain {p : Pattern} (hne : list ≠ []) (hplain : Plain list)
    (hcompile : Pattern.compile false (String.ofList (pattern escape list)) = .ok p) (c : Cursor) :
    (∃ t ∈ list, t <+: c.rest ∧ (∀ t' ∈ list, t' <+: c.rest → t'.length ≤ t.length) ∧
        ∃ stop, p.matchAt? c = some stop ∧ c.rest = t ++ stop.rest ∧
          stop.offset = c.offset + Text.byteLength t) ∨
      ((∀ t ∈ list, ¬ t <+: c.rest) ∧ p.matchAt? c = none) := by
  have hfits := fits_longest list
  rw [pattern_eq] at hcompile
  have hmatch := Branch.matchAt?_of_compile (trie_ne_nil hfits hne) (fineEach_trie hfits)
    (nodup_first_trie _ list) hcompile c
  have hmem (d : Cursor) : d ∈ Branch.endsEach (trie (longest list + 1) list) c ↔
      ∃ t ∈ list, d ∈ charsEnds t c := mem_endsEach_of_plain hplain hfits
  have hdecreasing := decreasing_endsEach_trie hplain hfits c
  rw [hmatch]
  match hends : Branch.endsEach (trie (longest list + 1) list) c with
  | [] =>
      refine .inr ⟨fun t ht hprefix => ?_, rfl⟩
      obtain ⟨d, hd⟩ := exists_mem_charsEnds hprefix
      have hin := (hmem d).2 ⟨t, ht, hd⟩
      rw [hends] at hin
      exact List.not_mem_nil hin
  | stop :: others =>
      rw [hends] at hmem hdecreasing
      obtain ⟨t, ht, hstop⟩ := (hmem stop).1 List.mem_cons_self
      obtain ⟨hrest, hoffset⟩ := rest_of_mem_charsEnds hstop
      have hprefix : t <+: c.rest := ⟨stop.rest, hrest.symm⟩
      refine .inl ⟨t, ht, hprefix, fun t' ht' hprefix' => ?_, stop, rfl, hrest, hoffset⟩
      obtain ⟨d, hd⟩ := exists_mem_charsEnds hprefix'
      have hle : d.offset ≤ stop.offset := by
        rcases List.mem_cons.1 ((hmem d).2 ⟨t', ht', hd⟩) with rfl | hothers
        · exact Nat.le_refl _
        · exact (List.pairwise_cons.1 hdecreasing).1 d hothers
      have hbytes := (rest_of_mem_charsEnds hd).2
      exact length_le_of_byteLength_le hprefix' hprefix (by omega)

end ChartParsing.Lexicon

namespace ChartParsing.Vocabulary

open Lexicon

/-- A lexicon that was just registered is the one that its name stands for. -/
theorem entity_of_addEntity {v v' : Vocabulary} {name : String} {texts : List String} {boundary : Boundary}
    {escape : Text → Text} (h : v.addEntity name texts false boundary escape = .ok v') :
    ∃ p, Pattern.compile false (String.ofList (pattern escape (texts.map String.toList))) = .ok p ∧
      v'.entity name = .ok (.entity name ⟨String.ofList (pattern escape (texts.map String.toList)), false,
        boundary, p⟩) := by
  unfold addEntity PatternTerminal.compile at h
  cases hcompile : Pattern.compile false
      (String.ofList (pattern escape (texts.map String.toList))) with
  | error fault => simp [hcompile, bind, Except.bind] at h
  | ok p =>
      simp only [hcompile, bind, Except.bind] at h
      obtain rfl := Except.ok.inj h
      exact ⟨p, rfl, by simp [entity, entityList?]⟩

/-- **The symbol of a lexicon matches the longest of its texts** that stands at an offset, and nothing if none
does; it is enough that the texts have no hyphens and no spaces. -/
theorem entity_longest {v v' : Vocabulary} {name : String} {texts : List String} (hne : texts ≠ [])
    (hplain : ∀ e ∈ texts, ∀ x ∈ e.toList, x ≠ '-' ∧ x ≠ ' ')
    (hadd : v.addEntity name texts false .anywhere escape = .ok v') :
    ∃ s, v'.entity name = .ok s ∧ ∀ (input : Text) (i : Nat) (c : Cursor), input.seek? i = some c →
      (∃ e ∈ texts, e.toList <+: c.rest ∧
          (∀ e' ∈ texts, e'.toList <+: c.rest → e'.toList.length ≤ e.toList.length) ∧
          s.matchAt? input i = some ⟨[e], i + Text.byteLength e.toList⟩) ∨
        ((∀ e ∈ texts, ¬ e.toList <+: c.rest) ∧ s.matchAt? input i = none) := by
  obtain ⟨p, hcompile, hentity⟩ := entity_of_addEntity hadd
  refine ⟨_, hentity, fun input i c hseek => ?_⟩
  have hlist : Plain (texts.map String.toList) := List.forall_mem_map.2 hplain
  have hanywhere : ∀ before after, Boundary.accepts .anywhere before after = true := fun before after => by
    cases before <;> cases after <;> rfl
  have hi : c.offset = i := (Text.seek?_eq_some.1 hseek).2
  simp only [Symbol.matchAt?, PatternTerminal.matchAt?, PatternTerminal.matchFrom?, hseek, hanywhere]
  rcases matchAt?_of_plain (by simpa using hne) hlist hcompile c with
    ⟨t, ht, hprefix, hlongest, stop, hstop, hrest, hoffset⟩ | ⟨hnone, hmatch⟩
  · obtain ⟨e, he, rfl⟩ := List.mem_map.1 ht
    refine .inl ⟨e, he, hprefix, List.forall_mem_map.1 hlongest, ?_⟩
    rw [hstop, ← hi, hoffset.symm]
    simp [hrest]
  · exact .inr ⟨fun e he => hnone _ (List.mem_map_of_mem he), by rw [hmatch]; rfl⟩

/-- Neither the shorter text that comes first nor the empty one is matched. -/
theorem entity_longest_second : ∃ v' s,
    empty.addEntity "e" ["a", "ab", "", "é.", "ab"] false .anywhere escape = .ok v' ∧
      v'.entity "e" = .ok s ∧ s.matchAt? "xabc".toList 1 = some ⟨["ab"], 3⟩ := by
  obtain ⟨v', hadd⟩ := exists_of_isOk
    (show (empty.addEntity "e" ["a", "ab", "", "é.", "ab"] false .anywhere escape).isOk = true by
      decide +kernel)
  have hplain : ["a", "ab", "", "é.", "ab"].all (fun e => e.toList.all (fun x => x ≠ '-' ∧ x ≠ ' ')) = true := by
    decide
  simp only [List.all_eq_true, decide_eq_true_iff] at hplain
  obtain ⟨s, hs, hlongest⟩ := entity_longest (by simp) hplain hadd
  refine ⟨v', s, hadd, hs, ?_⟩
  rcases hlongest "xabc".toList 1 ⟨1, some 'x', ['a', 'b', 'c']⟩ (by decide) with
    ⟨e, he, hprefix, hle, hmatch⟩ | ⟨hnone, -⟩
  · have hlength : 2 ≤ e.toList.length := hle "ab" (by simp) (by decide)
    simp only [List.mem_cons, List.not_mem_nil, or_false] at he
    rcases he with rfl | rfl | rfl | rfl | rfl
    · exact absurd hlength (by decide)
    · exact hmatch
    · exact absurd hlength (by decide)
    · exact absurd hprefix (by decide)
    · exact hmatch
  · exact absurd (by decide) (hnone "ab" (by simp))

end ChartParsing.Vocabulary
