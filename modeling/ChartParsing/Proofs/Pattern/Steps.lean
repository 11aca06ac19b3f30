import ChartParsing.Lexicon
import ChartParsing.Pattern.Compiled

/-!
# Reading patterns piece by piece

The reader goes from one state to the next.  `Leads` says that it comes from a state to another one, in no
more steps than there are characters in between; so the steps that it is given suffice, and each piece of a
pattern can be looked at by itself.

* **`leads_literal`**, **`leads_backslash`**, **`leads_count`**, **`leads_open`**, **`leads_close`**,
  **`leads_bar`**, **`leads_assertion`**: the pieces.
* **`readPattern_of_leads`**: what is read in the end.
-/

namespace ChartParsing.Pattern

variable {s s' s'' : State} {c : Char} {rest k : Text}

/-- The reader comes from the one state to the other, and each step takes a character at least. -/
def Leads (s s' : State) : Prop :=
  ∃ n, n + s'.rest.length ≤ s.rest.length ∧ ∀ fuel, State.run (fuel + n) s = State.run fuel s'

theorem Leads.refl (s : State) : Leads s s := ⟨0, Nat.le_of_eq (Nat.zero_add _), fun _ => rfl⟩

theorem Leads.trans (h : Leads s s') (h' : Leads s' s'') : Leads s s'' := by
  obtain ⟨n, hn, hrun⟩ := h
  obtain ⟨m, hm, hrun'⟩ := h'
  refine ⟨m + n, by omega, fun fuel => ?_⟩
  rw [← Nat.add_assoc, hrun, hrun']

/-- One step. -/
theorem Leads.of_step (hignore : s.ignore = false) (hrest : s.rest = c :: rest)
    (hstep : s.step c rest = .ok s') (hless : s'.rest.length ≤ rest.length) : Leads s s' := by
  refine ⟨1, by rw [hrest, List.length_cons]; omega, fun fuel => ?_⟩
  rw [State.run, hignore, hrest]
  show (s.step c rest >>= fun s => State.run fuel s) = _
  rw [hstep]
  rfl

/-- What is read in the end is what the last state holds. -/
theorem readPattern_of_leads {source : Text} {ast : Ast}
    (h : Leads ⟨source, [], [], [], 0, [], false⟩ s) (hrest : s.rest = []) (hframes : s.frames = [])
    (hignore : s.ignore = false) (hread : readPattern source = .ok ast) : ast = s.inside := by
  obtain ⟨n, hn, hrun⟩ := h
  rw [hrest] at hn
  have hfuel : source.length + 1 = (source.length - n + 1) + n := by
    dsimp only [List.length_nil] at hn
    omega
  have hend : State.run (source.length - n + 1) s = .ok s.inside := by
    rw [State.run, hignore, hrest]
    show (if s.frames.isEmpty then _ else _) = _
    rw [hframes]
    rfl
  unfold readPattern at hread
  rw [hfuel, hrun, hend] at hread
  simp only [bind, Except.bind] at hread
  split at hread
  · exact (Except.ok.inj hread).symm
  · simp at hread

/-! ### Pieces -/

/-- The characters that a pattern gives a meaning of their own to, where they stand by themselves. -/
def isSign (c : Char) : Bool :=
  ['(', ')', '|', '[', '?', '*', '+', '\x7b', '\\', '.', '^', '$'].contains c

/-- The state behind one more part. -/
def State.withPart (s : State) (part : Ast) (k : Text) : State :=
  { s with rest := k, parts := part :: s.parts }

/-- A character that stands for itself. -/
theorem leads_literal (hignore : s.ignore = false) (hc : isSign c = false) (hrest : s.rest = c :: k) :
    Leads s (s.withPart (.literal ⟨c, false⟩) k) := by
  refine .of_step hignore hrest ?_ (Nat.le_refl _)
  simp only [isSign, List.contains_cons, List.contains_nil, Bool.or_false, Bool.or_eq_false_iff,
    beq_eq_false_iff_ne, ne_eq] at hc
  unfold State.step
  split <;> try simp_all
  unfold readAtom
  split <;> simp_all [State.withPart, Atom.toAst, bind, Except.bind]

/-- A special character behind a backslash stands for itself. -/
theorem leads_backslash (hignore : s.ignore = false) (hc : Lexicon.isSpecial c = true)
    (hrest : s.rest = '\\' :: c :: k) : Leads s (s.withPart (.literal ⟨c, false⟩) k) := by
  refine .of_step hignore hrest ?_ (by simp [State.withPart])
  simp only [Lexicon.isSpecial, List.contains_cons, List.contains_nil, Bool.or_false, Bool.or_eq_true,
    beq_iff_eq] at hc
  rcases hc with rfl | rfl | rfl | rfl | rfl | rfl | rfl | rfl | rfl | rfl | rfl | rfl | rfl | rfl | rfl | rfl
  all_goals rfl

/-- The class of blanks. -/
theorem leads_blanks (hignore : s.ignore = false) (hrest : s.rest = '\\' :: 's' :: k) :
    Leads s (s.withPart (.shorthand .space false) k) :=
  .of_step hignore hrest rfl (by simp [State.withPart])

theorem leads_lineStart (hignore : s.ignore = false) (hrest : s.rest = '^' :: k) :
    Leads s (s.withPart (.assertion .lineStart) k) :=
  .of_step hignore hrest rfl (Nat.le_refl _)

theorem leads_lineEnd (hignore : s.ignore = false) (hrest : s.rest = '$' :: k) :
    Leads s (s.withPart (.assertion .lineEnd) k) :=
  .of_step hignore hrest rfl (Nat.le_refl _)

/-- No question mark comes next, which would make a repetition lazy. -/
def Calm (k : Text) : Prop := k.head? ≠ some '?'

theorem splitLazy_of_calm (hk : Calm k) : splitLazy k = (true, k) := by
  unfold splitLazy
  split
  · exact absurd rfl hk
  · rfl

theorem step_count (s : State) (k : Text) : s.step '\x7b' k = s.repeatCounted k := rfl

theorem endCount_eq (s : State) (min max : Nat) (k : Text) : s.endCount min (some max) ('\x7d' :: k) =
    (let (greedy, after) := splitLazy (skip s.ignore k)
     if min ≤ max then s.repeatLast min (some max) greedy after else .error .badCount) := rfl

/-- A repetition of up to four. -/
theorem leads_count {part : Ast} {parts : List Ast} {digit : Char} {min : Nat} (hignore : s.ignore = false)
    (hparts : s.parts = part :: parts) (hpart : part.isUnrepeatable = false)
    (hdigit : digit = '0' ∧ min = 0 ∨ digit = '1' ∧ min = 1)
    (hrest : s.rest = '\x7b' :: digit :: ',' :: '4' :: '\x7d' :: k) (hk : Calm k) :
    Leads s { s with rest := k, parts := .repetition min (some 4) true part :: parts } := by
  refine .of_step hignore hrest ?_ (by simp; omega)
  obtain ⟨rest, parts', branches, frames, captures, names, ignore⟩ := s
  obtain rfl : ignore = false := hignore
  obtain rfl : parts' = part :: parts := hparts
  rw [step_count]
  unfold State.repeatCounted
  dsimp only
  rw [if_neg (by simp [hpart])]
  have hend (min : Nat) (hmin : min ≤ 4) : State.endCount
      ⟨rest, part :: parts, branches, frames, captures, names, false⟩ min (some 4) ('\x7d' :: k) =
        .ok ⟨k, .repetition min (some 4) true part :: parts, branches, frames, captures, names, false⟩ := by
    rw [endCount_eq, show skip false k = k from rfl, splitLazy_of_calm hk]
    dsimp only
    rw [if_pos hmin]
    unfold State.repeatLast
    dsimp only
    rw [if_neg (by simp [hpart])]
  rcases hdigit with ⟨rfl, rfl⟩ | ⟨rfl, rfl⟩
  · exact hend 0 (by decide)
  · exact hend 1 (by decide)

/-! ### Groups and branches -/

theorem leads_open (hignore : s.ignore = false) (hrest : s.rest = "(?:".toList ++ k) :
    Leads s (s.openGroup (.plain []) false k) := by
  have hopen : s.rest = '(' :: ('?' :: ':' :: k) := hrest
  refine .of_step hignore hopen ?_ (by simp [State.openGroup]; omega)
  obtain ⟨rest, parts, branches, frames, captures, names, ignore⟩ := s
  obtain rfl : ignore = false := hignore
  rfl

theorem leads_close {parts branches : List Ast} {frames : List GroupFrame} (hignore : s.ignore = false)
    (hframes : s.frames = ⟨.plain [], parts, branches, false⟩ :: frames) (hrest : s.rest = ')' :: k) :
    Leads s { s with rest := k, parts := .group [] s.inside :: parts, branches := branches,
                     frames := frames } := by
  refine .of_step hignore hrest ?_ (Nat.le_refl _)
  show s.endGroup k = _
  unfold State.endGroup
  rw [hframes]
  dsimp only
  rw [hignore]

theorem leads_bar (hignore : s.ignore = false) (hrest : s.rest = '|' :: k) : Leads s (s.endBranch k) :=
  .of_step hignore hrest rfl (Nat.le_refl _)

/-! ### Rows of parts -/

/-- The state behind several more parts. -/
def State.withParts (s : State) (parts : List Ast) (k : Text) : State :=
  { s with rest := k, parts := parts.reverse ++ s.parts }

/-- Wherever it stands, the text is read as these parts, unless a question mark follows. -/
structure Reads (w : Text) (parts : List Ast) : Prop where
  calm : ∀ k, Calm k → Calm (w ++ k)
  leads : ∀ s k, s.ignore = false → s.rest = w ++ k → Calm k → Leads s (s.withParts parts k)

theorem Reads.nil : Reads [] [] where
  calm _ hk := hk
  leads s k _ hrest _ := by
    have hs : s.withParts [] k = s := by
      unfold State.withParts
      rw [← (show s.rest = k from hrest)]
      rfl
    rw [hs]
    exact .refl s

theorem Reads.append {w w' : Text} {parts parts' : List Ast} (h : Reads w parts) (h' : Reads w' parts') :
    Reads (w ++ w') (parts ++ parts') where
  calm k hk := by
    rw [List.append_assoc]
    exact h.calm _ (h'.calm k hk)
  leads s k hignore hrest hk := by
    rw [List.append_assoc] at hrest
    have hfirst := h.leads s (w' ++ k) hignore hrest (h'.calm k hk)
    have hsecond := h'.leads (s.withParts parts (w' ++ k)) k hignore rfl hk
    have hall := hfirst.trans hsecond
    unfold State.withParts at hall ⊢
    rwa [List.reverse_append, List.append_assoc]

theorem Reads.flatMap {α : Type} {w : α → Text} {parts : α → List Ast} {list : List α}
    (h : ∀ a ∈ list, Reads (w a) (parts a)) : Reads (list.flatMap w) (list.flatMap parts) := by
  induction list with
  | nil => exact .nil
  | cons a rest ih =>
      exact (h a List.mem_cons_self).append (ih (fun b hb => h b (List.mem_cons_of_mem a hb)))

theorem Reads.of_leads {c : Char} {w : Text} {part : Ast} (hc : c ≠ '?')
    (h : ∀ s k, s.ignore = false → s.rest = c :: (w ++ k) → Calm k → Leads s (s.withPart part k)) :
    Reads (c :: w) [part] where
  calm _ _ := fun hhead => hc (Option.some.inj hhead)
  leads s k hignore hrest hk := h s k hignore hrest hk

theorem reads_lineStart : Reads ['^'] [.assertion .lineStart] :=
  .of_leads (by decide) (fun _ _ hignore hrest _ => leads_lineStart hignore hrest)

theorem reads_lineEnd : Reads ['$'] [.assertion .lineEnd] :=
  .of_leads (by decide) (fun _ _ hignore hrest _ => leads_lineEnd hignore hrest)

/-- Branches that follow one another, with bars between them. -/
def withBars (rows : List (Text × List Ast)) : Text := List.intercalate ['|'] (rows.map Prod.fst)

/-- The choice between the branches. -/
def choiceOf (rows : List (Text × List Ast)) : Ast :=
  Ast.choice (rows.map (fun row => Ast.sequence row.2))

/-- At the end of the branches the reader has the last one's parts, and all before it. -/
theorem leads_branches {rows : List (Text × List Ast)} (hne : rows ≠ [])
    (hrows : ∀ row ∈ rows, Reads row.1 row.2) (s : State) (k : Text) (hignore : s.ignore = false)
    (hparts : s.parts = []) (hrest : s.rest = withBars rows ++ k) (hk : Calm k) : ∃ parts branches,
      Leads s { s with rest := k, parts := parts, branches := branches } ∧
        Ast.choice (Ast.sequence parts.reverse :: branches).reverse =
          Ast.choice (s.branches.reverse ++ rows.map (fun row => Ast.sequence row.2)) := by
  induction rows generalizing s with
  | nil => exact absurd rfl hne
  | cons row rest ih =>
      have hrow := hrows row List.mem_cons_self
      cases rest with
      | nil =>
          have hw : withBars [row] = row.1 := by simp [withBars]
          rw [hw] at hrest
          have hleads := hrow.leads s k hignore hrest hk
          refine ⟨row.2.reverse, s.branches, ?_, ?_⟩
          · unfold State.withParts at hleads
            rwa [hparts, List.append_nil] at hleads
          · simp
      | cons row' rest =>
          have hw : withBars (row :: row' :: rest) ++ k =
              row.1 ++ '|' :: (withBars (row' :: rest) ++ k) := by
            simp [withBars, List.intercalate]
          rw [hw] at hrest
          have hfirst := hrow.leads s _ hignore hrest (by simp [Calm])
          have hbar := leads_bar (s := s.withParts row.2 _) (k := withBars (row' :: rest) ++ k) hignore rfl
          obtain ⟨parts, branches, hlast, hinside⟩ := ih (by simp)
            (fun r hr => hrows r (List.mem_cons_of_mem _ hr))
            ((s.withParts row.2 ('|' :: (withBars (row' :: rest) ++ k))).endBranch
              (withBars (row' :: rest) ++ k)) hignore rfl rfl
          refine ⟨parts, branches, (hfirst.trans hbar).trans hlast, hinside.trans ?_⟩
          refine congrArg Ast.choice ?_
          simp [State.endBranch, State.withParts, hparts]

/-- A group of branches is one part. -/
theorem reads_group {rows : List (Text × List Ast)} (hne : rows ≠ [])
    (hrows : ∀ row ∈ rows, Reads row.1 row.2) :
    Reads ("(?:".toList ++ withBars rows ++ [')']) [.group [] (choiceOf rows)] where
  calm k _ := by simp [Calm]
  leads s k hignore hrest hk := by
    rw [List.append_assoc, List.append_assoc] at hrest
    have hopen := leads_open hignore hrest
    obtain ⟨parts, branches, hbranches, hinside⟩ := leads_branches hne hrows
      (s.openGroup (.plain []) false (withBars rows ++ ([')'] ++ k))) ([')'] ++ k) rfl rfl rfl
      (by simp [Calm])
    have hframes : (s.openGroup (.plain []) false (withBars rows ++ ([')'] ++ k))).frames =
        ⟨.plain [], s.parts, s.branches, false⟩ :: s.frames := by
      rw [← hignore]
      rfl
    have hclose := leads_close (k := k) (s := { s.openGroup (.plain []) false
      (withBars rows ++ ([')'] ++ k)) with rest := [')'] ++ k, parts := parts, branches := branches })
      rfl hframes rfl
    have hall := (hopen.trans hbranches).trans hclose
    unfold State.inside at hall
    dsimp only at hall
    rw [hinside] at hall
    unfold State.openGroup at hall
    dsimp only at hall
    rw [← hignore] at hall
    exact hall

/-- **A row of branches** is read as the choice between them. -/
theorem readPattern_withBars {rows : List (Text × List Ast)} {ast : Ast} (hne : rows ≠ [])
    (hrows : ∀ row ∈ rows, Reads row.1 row.2) (h : readPattern (withBars rows) = .ok ast) :
    ast = choiceOf rows := by
  obtain ⟨parts, branches, hleads, hinside⟩ := leads_branches hne hrows
    ⟨withBars rows, [], [], [], 0, [], false⟩ [] rfl rfl (List.append_nil _).symm (by simp [Calm])
  exact (readPattern_of_leads hleads rfl rfl rfl h).trans hinside

/-- A row of parts is read as their sequence. -/
theorem readPattern_of_reads {w : Text} {parts : List Ast} {ast : Ast} (h : Reads w parts)
    (hread : readPattern w = .ok ast) : ast = Ast.sequence parts := by
  have hw : withBars [(w, parts)] = w := by simp [withBars]
  rw [← hw] at hread
  exact readPattern_withBars (by simp) (by simpa using h) hread

end ChartParsing.Pattern
