import ChartParsing.Proofs.Lexicon.Pieces

/-!
# Trees of pieces

A `Branch` is a row of pieces, perhaps with a choice between further branches behind it.  The branches of a
choice start with different pieces: `FineEach`.  So nothing is moved about when the pattern of a tree is made,
and its ends can be read off the tree.

* **`matchAt?_of_compile`**: the pattern of some branches matches up to the first of their ends.
* **`accepts_iff`**: between anchors it matches the texts at whose ends one of the branches can end.
-/

namespace ChartParsing.Lexicon

open Pattern Pattern.Node

/-- A row of pieces, perhaps with a choice behind it. -/
inductive Branch where
  | leaf (pieces : List Piece)
  | fork (pieces : List Piece) (branches : List Branch)

namespace Branch

variable {b : Branch} {bs : List Branch} {ps : List Piece} {c : Cursor}

/-- The row in front. -/
def front : Branch → List Piece
  | leaf ps => ps
  | fork ps _ => ps

/-- What a branch starts with. -/
def first (b : Branch) : Option Piece := b.front.head?

mutual

/-- The pattern of a branch. -/
def write : Branch → Text
  | leaf ps => ps.flatMap Piece.write
  | fork ps bs =>
      ps.flatMap Piece.write ++ ("(?:".toList ++ List.intercalate ['|'] (writeEach bs) ++ [')'])

/-- The patterns of several branches. -/
def writeEach : List Branch → List Text
  | [] => []
  | b :: bs => write b :: writeEach bs

end

mutual

/-- The parts that a branch is read as. -/
def parts : Branch → List Ast
  | leaf ps => ps.flatMap Piece.parts
  | fork ps bs => ps.flatMap Piece.parts ++ [.group [] (Ast.choice (sequences bs))]

/-- The sequences that branches are read as. -/
def sequences : List Branch → List Ast
  | [] => []
  | b :: bs => Ast.sequence (parts b) :: sequences bs

end

mutual

/-- The nodes that a branch stands for. -/
def nodes : Branch → List Node
  | leaf ps => ps.flatMap Piece.nodes
  | fork ps bs => ps.flatMap Piece.nodes ++ [either (nodesEach bs)]

/-- The nodes that branches stand for, one for each. -/
def nodesEach : List Branch → List Node
  | [] => []
  | b :: bs => joined (nodes b) :: nodesEach bs

end

/-- The ends of a row of pieces. -/
def rowEnds (ps : List Piece) (c : Cursor) : List Cursor := endsAll (ps.flatMap Piece.nodes) c

mutual

/-- The ends of a branch. -/
def ends : Branch → Cursor → List Cursor
  | leaf ps, c => rowEnds ps c
  | fork ps bs, c => (rowEnds ps c).flatMap (endsEach bs)

/-- The ends of a choice between branches. -/
def endsEach : List Branch → Cursor → List Cursor
  | [], _ => []
  | b :: bs, c => ends b c ++ endsEach bs c

end

mutual

/-- Choices are not empty, come behind a piece, and their branches start with different pieces. -/
def Fine : Branch → Prop
  | leaf _ => True
  | fork ps bs => ps ≠ [] ∧ bs ≠ [] ∧ (bs.map first).Nodup ∧ FineEach bs

/-- All of the branches are fine. -/
def FineEach : List Branch → Prop
  | [] => True
  | b :: bs => Fine b ∧ FineEach bs

end

theorem fineEach_iff : FineEach bs ↔ ∀ b ∈ bs, b.Fine := by
  induction bs with
  | nil => simp [FineEach]
  | cons b bs ih => rw [FineEach, ih, List.forall_mem_cons]

theorem writeEach_eq_map (bs : List Branch) : writeEach bs = bs.map write := by
  induction bs with
  | nil => rfl
  | cons b bs ih => rw [writeEach, ih, List.map_cons]

theorem sequences_eq_map (bs : List Branch) : sequences bs = bs.map (fun b => Ast.sequence b.parts) := by
  induction bs with
  | nil => rfl
  | cons b bs ih => rw [sequences, ih, List.map_cons]

theorem nodesEach_eq_map (bs : List Branch) : nodesEach bs = bs.map (fun b => joined b.nodes) := by
  induction bs with
  | nil => rfl
  | cons b bs ih => rw [nodesEach, ih, List.map_cons]

theorem endsEach_eq_flatMap (bs : List Branch) (c : Cursor) :
    endsEach bs c = bs.flatMap (fun b => b.ends c) := by
  induction bs with
  | nil => rfl
  | cons b bs ih => rw [endsEach, ih, List.flatMap_cons]

/-! ### Reading -/

/-- The texts of branches, with the parts that they are read as. -/
def rows (bs : List Branch) : List (Text × List Ast) := bs.map (fun b => (b.write, b.parts))

/-- The pattern of a choice between branches. -/
def writeAll (bs : List Branch) : Text := withBars (rows bs)

theorem intercalate_writeEach (bs : List Branch) :
    List.intercalate ['|'] (writeEach bs) = writeAll bs := by
  rw [writeEach_eq_map, writeAll, withBars, rows, List.map_map]
  rfl

theorem choice_sequences (bs : List Branch) : Ast.choice (sequences bs) = choiceOf (rows bs) := by
  rw [sequences_eq_map, choiceOf, rows, List.map_map]
  rfl

theorem rows_ne_nil (h : bs ≠ []) : rows bs ≠ [] := fun hrows => h (List.map_eq_nil_iff.1 hrows)

theorem reads_row (ps : List Piece) : Reads (ps.flatMap Piece.write) (ps.flatMap Piece.parts) :=
  .flatMap (fun p _ => p.reads)

mutual

/-- **A branch is read as its parts.** -/
theorem reads : (b : Branch) → b.Fine → Reads b.write b.parts
  | leaf ps, _ => reads_row ps
  | fork ps bs, h => by
      obtain ⟨-, hne, -, hfine⟩ := h
      rw [write, parts, intercalate_writeEach, choice_sequences]
      exact (reads_row ps).append (reads_group (rows_ne_nil hne) (reads_each bs hfine))

theorem reads_each : (bs : List Branch) → FineEach bs → ∀ row ∈ rows bs, Reads row.1 row.2
  | [], _ => fun _ hrow => absurd hrow List.not_mem_nil
  | b :: bs, h => fun row hrow => by
      rcases List.mem_cons.1 hrow with rfl | hrow
      · exact reads b h.1
      · exact reads_each bs h.2 row hrow

end

/-! ### Openings -/

/-- How a piece opens. -/
def openingOf : Piece → Opening
  | .char c => .char c
  | .space => .count 1
  | .hyphen => .count 0

theorem openingOf_injective : Function.Injective openingOf := by
  intro p q h
  cases p <;> cases q <;> simp_all [openingOf]

/-- A row of pieces opens as its first piece does. -/
theorem exists_flatMap_nodes {p : Piece} (hps : ps.head? = some p) : ∃ n ns,
    ps.flatMap Piece.nodes = n :: ns ∧ n.opening? = some (openingOf p) := by
  obtain ⟨rest, rfl⟩ := List.head?_eq_some_iff.1 hps
  cases p <;> exact ⟨_, _, rfl, rfl⟩

/-- **The node of a branch** is plain and opens as the first piece does. -/
theorem node_opening (h : b.Fine) :
    (joined b.nodes).Plain ∧ (joined b.nodes).opening = b.first.map openingOf := by
  cases hfirst : b.first with
  | none =>
      have hnil : b.front = [] := List.head?_eq_none_iff.1 hfirst
      cases b with
      | leaf ps =>
          obtain rfl : ps = [] := hnil
          exact ⟨⟨rfl, rfl⟩, rfl⟩
      | fork ps bs => exact absurd hnil h.1
  | some p =>
      have hfront : b.front.head? = some p := hfirst
      obtain ⟨n, ns, hnodes, hopening⟩ := exists_flatMap_nodes hfront
      have hopener : n.isOpener = true := by rw [isOpener, hopening]; rfl
      have hb : ∃ more, b.nodes = n :: more := by
        cases b with
        | leaf ps => exact ⟨ns, hnodes⟩
        | fork ps bs => exact ⟨ns ++ [either (nodesEach bs)], congrArg (· ++ _) hnodes⟩
      obtain ⟨more, hmore⟩ := hb
      rw [hmore]
      obtain ⟨hplain, hjoined⟩ := joined_cons hopener more
      exact ⟨hplain, hjoined.trans hopening⟩

theorem plain_nodesEach (h : FineEach bs) : ∀ n ∈ nodesEach bs, n.Plain := by
  rw [nodesEach_eq_map]
  intro n hn
  obtain ⟨b, hb, rfl⟩ := List.mem_map.1 hn
  exact (node_opening (fineEach_iff.1 h b hb)).1

theorem nodup_openings (h : FineEach bs) (hfirst : (bs.map first).Nodup) :
    ((nodesEach bs).map opening).Nodup := by
  have hmap : (nodesEach bs).map opening = (bs.map first).map (Option.map openingOf) := by
    rw [nodesEach_eq_map, List.map_map, List.map_map]
    exact List.map_congr_left (fun b hb => (node_opening (fineEach_iff.1 h b hb)).2)
  rw [hmap]
  exact hfirst.map (Option.map_injective openingOf_injective)

/-! ### Nodes -/

/-- A sequence of parts stands for the sequence of nodes. -/
theorem toNode_sequence {parts : List Ast} {nodes : List Node} (h : Means parts nodes)
    (hsingle : ∀ n, nodes = [n] → n.isOpener = true) :
    Ast.toNodeUnder (Flags.initial false) (Ast.sequence parts) =
      .ok (joined nodes, Flags.initial false) := by
  unfold Means at h
  match parts with
  | [] =>
      obtain ⟨rfl, -⟩ := Prod.mk.inj (Except.ok.inj h)
      rfl
  | [part] =>
      rw [toNodes] at h
      cases hpart : Ast.toNodeUnder (Flags.initial false) part with
      | error e => simp [hpart, bind, Except.bind] at h
      | ok found =>
          obtain ⟨n, fl⟩ := found
          simp only [hpart, bind, Except.bind, toNodes, Except.ok.injEq, Prod.mk.injEq] at h
          obtain ⟨rfl, rfl⟩ := h
          rw [joined_singleton (hsingle n rfl)]
          exact hpart
  | part :: part' :: rest =>
      show Ast.toNodeUnder _ (.concat _) = _
      rw [Ast.toNodeUnder, h]
      rfl

theorem either_singleton {n : Node} (h : n.Plain) : either [n] = n := by
  unfold either eitherOf
  rw [List.flatMap_singleton, h.branches]

/-- A choice stands for the choice between nodes. -/
theorem toNode_choice {seqs : List Ast} {ns : List Node} (h : Means seqs ns) (hplain : ∀ n ∈ ns, n.Plain) :
    Ast.toNodeUnder (Flags.initial false) (Ast.choice seqs) = .ok (either ns, Flags.initial false) := by
  unfold Means at h
  match seqs with
  | [] =>
      obtain ⟨rfl, -⟩ := Prod.mk.inj (Except.ok.inj h)
      rfl
  | [part] =>
      rw [toNodes] at h
      cases hpart : Ast.toNodeUnder (Flags.initial false) part with
      | error e => simp [hpart, bind, Except.bind] at h
      | ok found =>
          obtain ⟨n, fl⟩ := found
          simp only [hpart, bind, Except.bind, toNodes, Except.ok.injEq, Prod.mk.injEq] at h
          obtain ⟨rfl, rfl⟩ := h
          rw [either_singleton (hplain n List.mem_cons_self)]
          exact hpart
  | part :: part' :: rest =>
      show Ast.toNodeUnder _ (.alternation _) = _
      rw [Ast.toNodeUnder, h]
      rfl

theorem means_row (ps : List Piece) : Means (ps.flatMap Piece.parts) (ps.flatMap Piece.nodes) :=
  .flatMap (fun p _ => p.means)

theorem means_singleton {part : Ast} {n : Node}
    (h : Ast.toNodeUnder (Flags.initial false) part = .ok (n, Flags.initial false)) :
    Means [part] [n] := by
  rw [Means, toNodes, h]
  rfl

/-- A branch with one node has a literal or a repetition. -/
theorem isOpener_of_nodes (h : b.Fine) {n : Node} (hn : b.nodes = [n]) : n.isOpener = true := by
  cases b with
  | leaf ps =>
      have hmem : n ∈ ps.flatMap Piece.nodes := by
        rw [show ps.flatMap Piece.nodes = [n] from hn]
        exact List.mem_singleton_self n
      obtain ⟨p, -, hp⟩ := List.mem_flatMap.1 hmem
      cases p <;> simp only [Piece.nodes, List.mem_cons, List.not_mem_nil, or_false] at hp
      · rw [hp]; rfl
      · rw [hp]; rfl
      · rcases hp with rfl | rfl | rfl <;> rfl
  | fork ps bs =>
      obtain ⟨p, hp⟩ : ∃ p, ps.head? = some p := Option.isSome_iff_exists.1 (by simpa using h.1)
      obtain ⟨m, ms, hnodes, -⟩ := exists_flatMap_nodes hp
      rw [nodes, hnodes] at hn
      simp at hn

mutual

/-- **The parts of a branch stand for its nodes.** -/
theorem means : (b : Branch) → b.Fine → Means b.parts b.nodes
  | leaf ps, _ => means_row ps
  | fork ps bs, h => by
      have hbs := h.2.2.2
      have hchoice := toNode_choice (means_each bs hbs) (plain_nodesEach hbs)
      refine (means_row ps).append (means_singleton ?_)
      rw [Ast.toNodeUnder, show (Flags.initial false).setAll [] = Flags.initial false from rfl, hchoice]
      rfl

theorem means_each : (bs : List Branch) → FineEach bs → Means (sequences bs) (nodesEach bs)
  | [], _ => rfl
  | b :: bs, h =>
      (means_singleton (toNode_sequence (means b h.1) (fun _ hn => isOpener_of_nodes h.1 hn))).append
        (means_each bs h.2)

end

/-! ### Ends -/

mutual

/-- **The ends of a branch** are those of its nodes. -/
theorem endsAll_nodes : (b : Branch) → b.Fine → ∀ c, endsAll b.nodes c = b.ends c
  | leaf _, _ => fun _ => rfl
  | fork ps bs, h => fun c => by
      rw [nodes, endsAll_append, ends]
      refine List.flatMap_congr (fun d _ => ?_)
      rw [endsAll_singleton, ends_either (plain_nodesEach h.2.2.2) (nodup_openings h.2.2.2 h.2.2.1)]
      exact flatMap_ends bs h.2.2.2 d

theorem flatMap_ends : (bs : List Branch) → FineEach bs → ∀ c,
    (nodesEach bs).flatMap (fun n => n.ends c) = endsEach bs c
  | [], _ => fun _ => rfl
  | b :: bs, h => fun c => by
      rw [nodesEach, List.flatMap_cons, ends_joined, endsAll_nodes b h.1, flatMap_ends bs h.2, endsEach]

end

theorem bounded_row (ps : List Piece) : (ps.flatMap Piece.nodes).all Node.bounded = true := by
  rw [List.all_eq_true]
  intro n hn
  obtain ⟨p, -, hp⟩ := List.mem_flatMap.1 hn
  cases p <;> simp only [Piece.nodes, List.mem_cons, List.not_mem_nil, or_false] at hp
  · rw [hp]; rfl
  · rw [hp]; rfl
  · rcases hp with rfl | rfl | rfl <;> rfl

mutual

theorem bounded_nodes : (b : Branch) → b.Fine → b.nodes.all Node.bounded = true
  | leaf ps, _ => bounded_row ps
  | fork ps bs, h => by
      have heither := bounded_either (plain_nodesEach h.2.2.2) (nodup_openings h.2.2.2 h.2.2.1)
        (bounded_nodesEach bs h.2.2.2)
      rw [nodes, List.all_append, bounded_row, List.all_cons, heither]
      rfl

theorem bounded_nodesEach : (bs : List Branch) → FineEach bs → ∀ n ∈ nodesEach bs, n.bounded = true
  | [], _ => fun _ hn => absurd hn List.not_mem_nil
  | b :: bs, h => fun n hn => by
      rcases List.mem_cons.1 hn with rfl | hn
      · rw [bounded_joined, bounded_nodes b h.1]
      · exact bounded_nodesEach bs h.2 n hn

end

/-! ### Compiled trees -/

/-- What a compiled pattern matches is the first end of its node. -/
theorem exists_node_of_compile {source : String} {p : Pattern} (h : Pattern.compile false source = .ok p) :
    ∃ ast n fl, readPattern source.toList = .ok ast ∧
      Ast.toNodeUnder (Flags.initial false) ast = .ok (n, fl) ∧
        (n.bounded = true → ∀ c, p.matchAt? c = (n.ends c).head?) := by
  unfold Pattern.compile at h
  cases hread : readPattern source.toList with
  | error e => simp [hread, bind, Except.bind] at h
  | ok ast =>
      cases hnode : Ast.toNodeUnder (Flags.initial false) ast with
      | error e => simp [hread, hnode, Ast.toNode, Except.map, bind, Except.bind] at h
      | ok found =>
          obtain ⟨n, fl⟩ := found
          simp only [hread, hnode, Ast.toNode, Except.map, bind, Except.bind] at h
          split at h
          · simp at h
          · obtain rfl := Except.ok.inj h
            exact ⟨ast, n, fl, rfl, hnode, fun hbounded c => Node.search_program hbounded c⟩

/-- The choice between fine branches that start differently stands for a node with their ends. -/
theorem toNode_rows (h : FineEach bs) :
    Ast.toNodeUnder (Flags.initial false) (choiceOf (rows bs)) =
      .ok (either (nodesEach bs), Flags.initial false) := by
  rw [← choice_sequences]
  exact toNode_choice (means_each bs h) (plain_nodesEach h)

theorem ends_rows (h : FineEach bs) (hfirst : (bs.map first).Nodup) (c : Cursor) :
    (either (nodesEach bs)).ends c = endsEach bs c := by
  rw [ends_either (plain_nodesEach h) (nodup_openings h hfirst), flatMap_ends bs h]

/-- **The pattern of a tree** matches up to the first of the tree's ends. -/
theorem matchAt?_of_compile {p : Pattern} (hne : bs ≠ []) (h : FineEach bs)
    (hfirst : (bs.map first).Nodup)
    (hcompile : Pattern.compile false (String.ofList (writeAll bs)) = .ok p) (c : Cursor) :
    p.matchAt? c = (endsEach bs c).head? := by
  obtain ⟨ast, n, fl, hread, hnode, hmatch⟩ := exists_node_of_compile hcompile
  rw [String.toList_ofList] at hread
  obtain rfl := readPattern_withBars (rows_ne_nil hne) (reads_each bs h) hread
  rw [toNode_rows h] at hnode
  obtain ⟨rfl, -⟩ := Prod.mk.inj (Except.ok.inj hnode)
  have hbounded := bounded_either (plain_nodesEach h) (nodup_openings h hfirst) (bounded_nodesEach bs h)
  rw [hmatch hbounded, ends_rows h hfirst]

end Branch

/-! ### Whole texts -/

/-- The pattern that matches whole texts only. -/
def anchored (source : Text) : String := "^(?:" ++ String.ofList source ++ ")$"

theorem toList_anchored (source : Text) :
    (anchored source).toList = ['^'] ++ ("(?:".toList ++ source ++ [')']) ++ ['$'] := by
  simp [anchored]

/-- The first place is the only one with nothing in front. -/
theorem eq_start_of_before {w : Text} {c : Cursor} (hc : c ∈ w.cursors) (h : c.before = none) :
    c = w.start := by
  have hbehind : ∀ (t : Text) (offset : Nat) (x : Char), ∀ d ∈ Text.cursorsFrom t offset (some x),
      d.before ≠ none := by
    intro t
    induction t with
    | nil => simp [Text.cursorsFrom]
    | cons y ys ih =>
        intro offset x d hd
        rcases List.mem_cons.1 hd with rfl | hd
        · simp
        · exact ih _ _ d hd
  cases w with
  | nil => exact List.mem_singleton.1 hc
  | cons x xs =>
      rcases List.mem_cons.1 hc with rfl | hc
      · rfl
      · exact absurd h (hbehind xs _ x c hc)

/-- The nodes of a tree between anchors. -/
def anchoredNodes (bs : List Branch) : List Node :=
  [.look .start] ++ [either (Branch.nodesEach bs)] ++ [.look .stop]

theorem toNode_anchored {bs : List Branch} (h : Branch.FineEach bs) :
    Ast.toNodeUnder (Flags.initial false) (Ast.sequence ([.assertion .lineStart] ++
      [.group [] (choiceOf (Branch.rows bs))] ++ [.assertion .lineEnd])) =
        .ok (joined (anchoredNodes bs), Flags.initial false) := by
  have hgroup : Ast.toNodeUnder (Flags.initial false) (.group [] (choiceOf (Branch.rows bs))) =
      .ok (either (Branch.nodesEach bs), Flags.initial false) := by
    rw [Ast.toNodeUnder, show (Flags.initial false).setAll [] = Flags.initial false from rfl,
      Branch.toNode_rows h]
    rfl
  have hmeans : Means ([.assertion .lineStart] ++ [.group [] (choiceOf (Branch.rows bs))] ++
      [.assertion .lineEnd]) (anchoredNodes bs) :=
    ((Branch.means_singleton rfl).append (Branch.means_singleton hgroup)).append
      (Branch.means_singleton rfl)
  exact Branch.toNode_sequence hmeans (fun m hm => by simp [anchoredNodes] at hm)

theorem bounded_anchored {bs : List Branch} (h : Branch.FineEach bs)
    (hfirst : (bs.map Branch.first).Nodup) : (joined (anchoredNodes bs)).bounded = true := by
  have heither := bounded_either (Branch.plain_nodesEach h) (Branch.nodup_openings h hfirst)
    (Branch.bounded_nodesEach bs h)
  rw [bounded_joined, anchoredNodes]
  simp only [List.cons_append, List.nil_append, List.all_cons, List.all_nil, Bool.and_true]
  rw [heither]
  rfl

/-- The anchors let through what starts at the start and ends at the end. -/
theorem mem_ends_anchored {bs : List Branch} (h : Branch.FineEach bs)
    (hfirst : (bs.map Branch.first).Nodup) (c d : Cursor) : d ∈ (joined (anchoredNodes bs)).ends c ↔
      c.before = none ∧ d ∈ Branch.endsEach bs c ∧ d.rest = [] := by
  rw [ends_joined, anchoredNodes, endsAll_append, endsAll_append]
  simp only [endsAll_singleton, Node.ends, Branch.ends_rows h hfirst, List.mem_flatMap, Look.holds,
    Cursor.after, List.mem_ite_nil_right, List.mem_singleton, Option.isNone_iff_eq_none,
    List.head?_eq_none_iff]
  constructor
  · rintro ⟨e, ⟨_, ⟨hbefore, rfl⟩, he⟩, hrest, rfl⟩
    exact ⟨hbefore, he, hrest⟩
  · rintro ⟨hbefore, hd, hrest⟩
    exact ⟨d, ⟨c, ⟨hbefore, rfl⟩, hd⟩, hrest, rfl⟩

/-- **Between anchors the pattern of a tree** matches the texts at whose ends the tree can end. -/
theorem accepts_iff {bs : List Branch} {p : Pattern} (hne : bs ≠ []) (h : Branch.FineEach bs)
    (hfirst : (bs.map Branch.first).Nodup)
    (hcompile : Pattern.compile false (anchored (Branch.writeAll bs)) = .ok p) (w : Text) :
    p.occursIn w = true ↔ ∃ c ∈ Branch.endsEach bs w.start, c.rest = [] := by
  obtain ⟨ast, n, fl, hread, hnode, hmatch⟩ := Branch.exists_node_of_compile hcompile
  rw [toList_anchored] at hread
  have hreads := (reads_lineStart.append
    (reads_group (Branch.rows_ne_nil hne) (Branch.reads_each bs h))).append reads_lineEnd
  obtain rfl := readPattern_of_reads hreads hread
  rw [toNode_anchored h] at hnode
  obtain ⟨rfl, -⟩ := Prod.mk.inj (Except.ok.inj hnode)
  have hends : ∀ c : Cursor, (p.matchAt? c).isSome = true ↔
      c.before = none ∧ ∃ d ∈ Branch.endsEach bs c, d.rest = [] := by
    intro c
    rw [hmatch (bounded_anchored h hfirst), List.isSome_head?, ← List.length_pos_iff,
      List.length_pos_iff_exists_mem]
    simp only [mem_ends_anchored h hfirst, exists_and_left]
  unfold Pattern.occursIn
  rw [List.any_eq_true]
  constructor
  · rintro ⟨c, hc, hsome⟩
    obtain ⟨hbefore, hend⟩ := (hends c).1 hsome
    rwa [eq_start_of_before hc hbefore] at hend
  · intro hend
    exact ⟨w.start, Cursor.mem_ahead_self w.start, (hends w.start).2 ⟨rfl, hend⟩⟩

end ChartParsing.Lexicon
