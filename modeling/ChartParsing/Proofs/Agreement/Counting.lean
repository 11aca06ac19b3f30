import ChartParsing.Proofs.Agreement.Readings

/-!
# Counting readings

Where only preferred splits count of an edge and of all that it uses, there is a derivation top down for
each that counts here.  Then a counterpart has no fewer readings: **`count_le`**.  It has more of them
unless all that the edge uses is complete: **`complete_of_count_le`**.

Where something of great priority is lost, something of less can count in its place.  That does not
happen in a `Level` grammar, in which rules of one nonterminal do not differ in priority.

Every edge has readings top down, so what is missing somewhere below an edge is missing in the number of
its readings too.
-/

namespace ChartParsing

/-! ### Lengths over matched lists -/

section Lengths

variable {α β γ δ : Type} {R : α → β → Prop} {F : α → List γ} {G : β → List δ} {l : List α}
  {m : List β} {a : α}

theorem length_flatMap_pos (ha : a ∈ l) (h : 0 < (F a).length) : 0 < (l.flatMap F).length := by
  obtain ⟨x, hx⟩ := List.exists_mem_of_length_pos h
  exact List.length_pos_of_mem (List.mem_flatMap.2 ⟨a, ha, hx⟩)

theorem length_flatMap_le (h : List.Forall₂ R l m)
    (hFG : ∀ a b, R a b → (F a).length ≤ (G b).length) :
    (l.flatMap F).length ≤ (m.flatMap G).length := by
  induction h with
  | nil => exact Nat.le_refl _
  | cons hab _ ih =>
      have hle := hFG _ _ hab
      rw [List.flatMap_cons, List.length_append, List.flatMap_cons, List.length_append]
      omega

/-- Where no part becomes shorter and the whole does not become longer, every part stays as long as it
is. -/
theorem length_eq_of_length_flatMap_le (h : List.Forall₂ R l m)
    (hFG : ∀ a b, R a b → (F a).length ≤ (G b).length)
    (hle : (m.flatMap G).length ≤ (l.flatMap F).length) (ha : a ∈ l) :
    ∃ b ∈ m, R a b ∧ (F a).length = (G b).length := by
  induction h with
  | nil => simp at ha
  | @cons x y l m hxy h ih =>
      have hpart := hFG _ _ hxy
      have hrest := length_flatMap_le h hFG
      rw [List.flatMap_cons, List.length_append, List.flatMap_cons, List.length_append] at hle
      rcases List.mem_cons.1 ha with rfl | ha
      · exact ⟨y, List.mem_cons_self, hxy, by omega⟩
      · obtain ⟨b, hb, hab, heq⟩ := ih (by omega) ha
        exact ⟨b, List.mem_cons_of_mem _ hb, hab, heq⟩

end Lengths

/-! ### Numbers of readings -/

namespace Arguments

theorem length_product (lists : List Arguments) (readings : List Reading) :
    (product lists readings).length = lists.length * readings.length := by
  unfold product
  induction lists with
  | nil => simp
  | cons args lists ih =>
      rw [List.flatMap_cons, List.length_append, ih, List.length_cons, Nat.succ_mul, Nat.add_comm]
      simp [extendBy]

end Arguments

/-- How many readings or lists of arguments there are. -/
def Expansion.count (u : Expansion) : Nat := u.toReadings.length + u.toArguments.length

theorem Item.count_expansion {rules : Array Rule} (i : Item rules) (lists : List Arguments) :
    (i.expansion lists).count = lists.length := by
  unfold Item.expansion
  split <;> simp [Expansion.count, Expansion.toReadings, Expansion.toArguments]

namespace Parser

open Relation

variable {g : Grammar} {strategy : Strategy} {lexer : Lexer} {input : Text}
  {c c' : Chart g.rules} {i i' : Item g.rules} {d h n n' s e p : Nat} {δ δ' : Derivation}
  {y : Option g.RuleId}

/-- An open edge unfolds into arguments only, and a finished one into readings. -/
theorem length_unfolded (hi : c.item? n = some i) :
    (i.isReduced = false → (c.unfolded n).toArguments.length = (c.unfolded n).count) ∧
      (i.isReduced = true → (c.unfolded n).toReadings.length = (c.unfolded n).count) := by
  have hexp : ∃ lists, c.unfolded n = i.expansion lists := by
    simp only [Chart.unfolded, Chart.unfoldTo, hi]
    split
    · exact ⟨_, rfl⟩
    · exact ⟨_, rfl⟩
  obtain ⟨lists, hlists⟩ := hexp
  rw [hlists]
  unfold Item.expansion
  constructor
  · intro h
    simp [h, Expansion.count, Expansion.toReadings, Expansion.toArguments]
  · intro h
    simp [h, Expansion.count, Expansion.toReadings, Expansion.toArguments]

theorem length_contribution_terminal {b : Nat} {o : Item g.rules} {texts : List String}
    (ho : c.item? b = some o) (hr : o.isReduced = false) :
    (c.contribution i c.unfolded ⟨some b, none, some texts⟩).length =
      (c.unfolded b).count * texts.length := by
  unfold Chart.contribution
  dsimp only
  rw [Arguments.length_product, (length_unfolded ho).1 hr, ho]
  simp [Item.leaves]

theorem length_contribution_nonterminal {a b : Nat} {o f : Item g.rules}
    (ho : c.item? b = some o) (hr : o.isReduced = false) (hf : c.item? a = some f)
    (hr' : f.isReduced = true) :
    (c.contribution i c.unfolded ⟨some b, some a, none⟩).length =
      (c.unfolded b).count * (c.unfolded a).count := by
  unfold Chart.contribution
  dsimp only
  rw [Arguments.length_product, (length_unfolded ho).1 hr, (length_unfolded hf).2 hr']

/-- A paired derivation brings no more than its partner, if what they refer to has no more readings. -/
theorem Paired.length_le (h : Paired lexer input c c' n s p e δ δ')
    (ih : ∀ m m' u v, Uses lexer input c (n, s, e) (m, u, v) → Counterpart c c' m m' u v →
      (c.unfolded m).count ≤ (c'.unfolded m').count) :
    (c.contribution i c.unfolded δ).length ≤ (c'.contribution i' c'.unfolded δ').length := by
  cases h with
  | @terminal b b' o t m ho ht hm hb hu =>
      have hr := not_isReduced_of_next? ht
      have hle := ih b b' s p hu hb
      obtain ⟨o₁, ho₁, -, hb'⟩ := hb
      obtain rfl := Option.some.inj (ho.symm.trans ho₁)
      rw [length_contribution_terminal ho hr, length_contribution_terminal hb' hr]
      exact Nat.mul_le_mul_right _ hle
  | @nonterminal b b' a a' o f ho hf ht hb hu ha hu' =>
      have hr := not_isReduced_of_next? (next?_of_wanted? ht.wanted)
      have hle := ih b b' s p hu hb
      have hle' := ih a a' p e hu' ha
      obtain ⟨o₁, ho₁, -, hb'⟩ := hb
      obtain ⟨f₁, hf₁, -, ha'⟩ := ha
      obtain rfl := Option.some.inj (ho.symm.trans ho₁)
      obtain rfl := Option.some.inj (hf.symm.trans hf₁)
      rw [length_contribution_nonterminal ho hr hf ht.reduced,
        length_contribution_nonterminal hb' hr ha' ht.reduced]
      exact Nat.mul_le_mul hle hle'

/-- A product that does not grow has no factor that does. -/
theorem le_of_mul_le_mul {a b a' b' : Nat} (ha : a ≤ a') (hb : b ≤ b') (ha' : 0 < a') (hb' : 0 < b')
    (h : a' * b' ≤ a * b) : a' ≤ a ∧ b' ≤ b := by
  constructor
  · by_contra hlt
    have h₁ : a * b ≤ a * b' := Nat.mul_le_mul_left a hb
    have h₂ : a * b' < a' * b' := Nat.mul_lt_mul_of_pos_right (Nat.lt_of_not_le hlt) hb'
    omega
  · by_contra hlt
    have h₁ : a * b ≤ a' * b := Nat.mul_le_mul_right b ha
    have h₂ : a' * b < a' * b' := Nat.mul_lt_mul_of_pos_left (Nat.lt_of_not_le hlt) ha'
    omega

/-- What a paired derivation refers to has as many readings as what its partner refers to, if it brings
as many. -/
theorem Paired.count_le (h : Paired lexer input c c' n s p e δ δ')
    (ih : ∀ m m' u v, Uses lexer input c (n, s, e) (m, u, v) → Counterpart c c' m m' u v →
      (c.unfolded m).count ≤ (c'.unfolded m').count ∧ 0 < (c'.unfolded m').count)
    (htexts : ∀ t q m, lexer t input q = some m → m.texts ≠ [])
    (hle : (c'.contribution i' c'.unfolded δ').length ≤ (c.contribution i c.unfolded δ).length) :
    (∀ b, δ.base = some b →
        ∃ b', Counterpart c c' b b' s p ∧ (c'.unfolded b').count ≤ (c.unfolded b).count) ∧
      ∀ a, δ.child = some a →
        ∃ a', Counterpart c c' a a' p e ∧ (c'.unfolded a').count ≤ (c.unfolded a).count := by
  cases h with
  | @terminal b b' o t m ho ht hm hb hu =>
      have hr := not_isReduced_of_next? ht
      obtain ⟨hb₁, hpos⟩ := ih b b' s p hu hb
      have hcp := hb
      obtain ⟨o₁, ho₁, -, hb'⟩ := hb
      obtain rfl := Option.some.inj (ho.symm.trans ho₁)
      rw [length_contribution_terminal ho hr, length_contribution_terminal hb' hr] at hle
      have hlen : 0 < m.texts.length := List.length_pos_iff.2 (htexts t p m hm)
      have hcount := (le_of_mul_le_mul hb₁ (Nat.le_refl _) hpos hlen hle).1
      refine ⟨fun k hk => ?_, fun k hk => absurd hk (by simp)⟩
      obtain rfl := Option.some.inj hk
      exact ⟨b', hcp, hcount⟩
  | @nonterminal b b' a a' o f ho hf ht hb hu ha hu' =>
      have hr := not_isReduced_of_next? (next?_of_wanted? ht.wanted)
      obtain ⟨hb₁, hpos⟩ := ih b b' s p hu hb
      obtain ⟨ha₁, hpos'⟩ := ih a a' p e hu' ha
      have hcp := hb
      have hcp' := ha
      obtain ⟨o₁, ho₁, -, hb'⟩ := hb
      obtain ⟨f₁, hf₁, -, ha'⟩ := ha
      obtain rfl := Option.some.inj (ho.symm.trans ho₁)
      obtain rfl := Option.some.inj (hf.symm.trans hf₁)
      rw [length_contribution_nonterminal ho hr hf ht.reduced,
        length_contribution_nonterminal hb' hr ha' ht.reduced] at hle
      obtain ⟨hcount, hcount'⟩ := le_of_mul_le_mul hb₁ ha₁ hpos hpos' hle
      refine ⟨fun k hk => ?_, fun k hk => ?_⟩
      · obtain rfl := Option.some.inj hk
        exact ⟨b', hcp, hcount⟩
      · obtain rfl := Option.some.inj hk
        exact ⟨a', hcp', hcount'⟩

/-- All derivations that count bring their readings. -/
theorem count_unfolded (hs : Shallow c.Needs c.size n) (hi : c.item? n = some i)
    (hd : i.dot = d + 1) : (c.unfolded n).count =
      ((c.derivations n).flatMap (c.contribution i c.unfolded)).length := by
  have hp : ¬ i.isPredicted = true := by
    intro h
    have : i.dot = 0 := of_decide_eq_true h
    omega
  rw [Chart.unfolded_eq hs hi, if_neg hp, Item.count_expansion]

theorem count_of_predicted (hs : Shallow c.Needs c.size n) (hi : c.item? n = some i)
    (hd : i.dot = 0) : (c.unfolded n).count = 1 := by
  have hp : i.isPredicted = true := decide_eq_true hd
  rw [Chart.unfolded_eq hs hi, if_pos hp, Item.count_expansion]
  rfl

/-! ### Every edge has readings -/

theorem Found.contribution_pos (h : Found lexer input c i s p e δ y) (j : Item g.rules)
    (htexts : ∀ t q m, lexer t input q = some m → m.texts ≠ [])
    (ih : ∀ m ∈ δ.links, 0 < (c.unfolded m).count) :
    0 < (c.contribution j c.unfolded δ).length := by
  cases h with
  | @terminal b o t m ho hn hd hover ht hs hm he =>
      have hlen : 0 < m.texts.length := List.length_pos_iff.2 (htexts t p m hm)
      rw [length_contribution_terminal ho (not_isReduced_of_next? ht)]
      exact Nat.mul_pos (ih b (by simp [Derivation.links])) hlen
  | @nonterminal b a o f ho hf hi hover hfe hd ht =>
      have hr := not_isReduced_of_next? (next?_of_wanted? ht.wanted)
      rw [length_contribution_nonterminal ho hr hf ht.reduced]
      exact Nat.mul_pos (ih b (by simp [Derivation.links])) (ih a (by simp [Derivation.links]))

/-- Top down something counts of every edge whose dot was moved. -/
theorem exists_counts_of_dot (hc : Parsed .topDown lexer input c) (hi : c.item? n = some i)
    (hover : i.Over s e) (hd : i.dot = d + 1) : ∃ δ, δ ∈ c.derivations n := by
  obtain ⟨x, hx, rfl⟩ := Chart.item?_eq_some.1 hi
  have hne := hc.built.derivations_ne_nil hx (by omega)
  obtain ⟨δ, hδ⟩ := List.exists_mem_of_ne_nil _ (preferred_ne_nil c.childPriority? hne)
  exact ⟨δ, (counts_iff_topDown hc hx hover).2 hδ⟩

/-- **Top down every edge has readings.** -/
theorem count_pos (hc : Parsed .topDown lexer input c) (ha : Advances g lexer input)
    (hf : CycleFree g lexer input) (htexts : ∀ t q m, lexer t input q = some m → m.texts ≠ [])
    (hi : c.item? n = some i) : 0 < (c.unfolded n).count := by
  refine (hc.shallow ha hf hi).induction
    (P := fun n => ∀ i, c.item? n = some i → 0 < (c.unfolded n).count) ?_ i hi
  intro n ih i hi
  have hs := hc.shallow ha hf hi
  rcases Nat.eq_zero_or_pos i.dot with hd | hd
  · rw [count_of_predicted hs hi hd]
    exact Nat.one_pos
  · obtain ⟨d, hd⟩ := Nat.exists_eq_succ_of_ne_zero (Nat.ne_of_gt hd)
    obtain ⟨s, e, hover, -⟩ := hc.built.exists_over ⟨n, hi⟩
    obtain ⟨δ, hδ⟩ := exists_counts_of_dot hc hi hover hd
    obtain ⟨p, y, hfound⟩ := hc.found_of_counts hi hover hδ
    have hpos := hfound.contribution_pos i htexts (fun m hm => by
      have hneeds : c.Needs n m := ⟨δ, hδ, hm⟩
      obtain ⟨j, hj⟩ := hc.built.exists_item_of_links hneeds.links
      exact ih m hneeds j hj)
    rw [count_unfolded hs hi hd]
    exact length_flatMap_pos hδ hpos

/-! ### Edges of which only the best counts -/

/-- Nothing counts of the edge that was not found at a preferred split of the stretch. -/
def OnlyPreferred (lexer : Lexer) (input : Text) (c : Chart g.rules) (n s e : Nat) : Prop :=
  ∀ i d p y δ, c.item? n = some i → i.dot = d + 1 → δ ∈ c.derivations n →
    Found lexer input c i s p e δ y → PreferredSplit lexer input i.number d s p e y

/-- It is so of complete edges. -/
theorem Complete.onlyPreferred (hn : Complete lexer input c n s e)
    (hc : Parsed strategy lexer input c) : OnlyPreferred lexer input c n s e := by
  intro i d p y δ hi hd hδ h
  obtain ⟨x, hx, rfl⟩ := Chart.item?_eq_some.1 hi
  exact hn.preferredSplit hc hx hd hδ h

/-- Rules of one nonterminal do not differ in priority. -/
def Level (g : Grammar) : Prop :=
  ∀ (r r' : g.RuleId) (b b' : Int), (g.rule r).lhs = (g.rule r').lhs →
    (g.rule r).priority = some b → (g.rule r').priority = some b' → b = b'

/-- In a level grammar every split is preferred. -/
theorem Level.preferred {r : g.RuleId} (hg : Level g) (h : Splits lexer input r d s p e y) :
    PreferredSplit lexer input r d s p e y := by
  refine ⟨h, fun b hb q y' h' b' hb' => ?_⟩
  obtain ⟨r₁, rfl, hr₁⟩ := Option.bind_eq_some_iff.1 hb
  obtain ⟨r₂, rfl, hr₂⟩ := Option.bind_eq_some_iff.1 hb'
  cases h with
  | nonterminal _ ht _ _ =>
      cases h' with
      | nonterminal _ ht' _ _ =>
          have hlhs : (g.rule r₂).lhs = (g.rule r₁).lhs :=
            Symbol.nonterminal.inj (Option.some.inj (ht'.symm.trans ht))
          exact Int.le_of_eq (hg r₂ r₁ b' b hlhs hr₂ hr₁)

theorem Level.onlyPreferred (hg : Level g) (hc : Parsed strategy lexer input c) :
    OnlyPreferred lexer input c n s e := by
  intro i d p y δ _ hd _ h
  exact hg.preferred (h.splits_of_dot hc.built hc.noGaps hd)

/-- What counts of an edge is matched with a part of what counts of its counterpart. -/
theorem OnlyPreferred.exists_matching (hp : OnlyPreferred lexer input c n s e)
    (hc : Parsed strategy lexer input c) (hc' : Parsed .topDown lexer input c')
    (hcp : Counterpart c c' n n' s e) (hi : c.item? n = some i) (hover : i.Over s e)
    (hd : i.dot = d + 1) :
    ∃ m rest, List.Forall₂ (SameSplit lexer input c c' n n' s e) (c.derivations n) m ∧
      (c'.derivations n').Perm (m ++ rest) := by
  refine ChartParsing.exists_matching (hc.wellFormed.nodup_derivations n) (fun δ hδ => ?_)
    (fun _ _ _ h h' => h.left_unique hc h')
  obtain ⟨p, y, hf⟩ := hc.found_of_counts hi hover hδ
  exact exists_sameSplit hc' hcp hi hd hδ hf (hp i d p y δ hi hd hδ hf)

/-- **A counterpart has no fewer readings.** -/
theorem count_le (hc : Parsed strategy lexer input c) (hc' : Parsed .topDown lexer input c')
    (ha : Advances g lexer input) (hf : CycleFree g lexer input) (hcp : Counterpart c c' n n' s e)
    (hp : ∀ m u v, ReflTransGen (Uses lexer input c) (n, s, e) (m, u, v) →
      OnlyPreferred lexer input c m u v) :
    (c.unfolded n).count ≤ (c'.unfolded n').count := by
  have hs : Shallow c.Needs c.size n := by
    obtain ⟨i, hi, -, -⟩ := hcp
    exact hc.shallow ha hf hi
  refine hs.induction (P := fun n => ∀ n' s e, Counterpart c c' n n' s e →
    (∀ m u v, ReflTransGen (Uses lexer input c) (n, s, e) (m, u, v) →
      OnlyPreferred lexer input c m u v) →
    (c.unfolded n).count ≤ (c'.unfolded n').count) ?_ n' s e hcp hp
  intro n ih n' s e hcp hp
  obtain ⟨i, hi, hover, hn'⟩ := id hcp
  have hs := hc.shallow ha hf hi
  have hs' := hc'.shallow ha hf hn'
  rcases Nat.eq_zero_or_pos i.dot with hd | hd
  · have hone := count_of_predicted hs hi hd
    have hone' := count_of_predicted hs' hn' hd
    omega
  · obtain ⟨d, hd⟩ := Nat.exists_eq_succ_of_ne_zero (Nat.ne_of_gt hd)
    obtain ⟨m, rest, hm, hperm⟩ := (hp n s e .refl).exists_matching hc hc' hcp hi hover hd
    rw [count_unfolded hs hi hd, count_unfolded hs' hn' hd, (hperm.flatMap_right _).length_eq,
      List.flatMap_append, List.length_append]
    refine Nat.le_trans (length_flatMap_le hm (fun δ δ' h => ?_)) (Nat.le_add_right _ _)
    obtain ⟨p, y, hfound⟩ := hc.found_of_counts hi hover h.left
    exact (h.paired hc' hcp hi hfound).length_le (fun k k' u v hu hk =>
      ih k hu.needs k' u v hk (fun m u v h => hp m u v (.head hu h)))

/-- An edge with as many readings as its counterpart has a partner for each derivation that counts
there, and what its derivations refer to has as many readings too. -/
theorem exists_partner_of_count_le (hc : Parsed strategy lexer input c)
    (hc' : Parsed .topDown lexer input c') (ha : Advances g lexer input) (hf : CycleFree g lexer input)
    (hp : ∀ m u v, ReflTransGen (Uses lexer input c) (n, s, e) (m, u, v) →
      OnlyPreferred lexer input c m u v)
    (htexts : ∀ t q m, lexer t input q = some m → m.texts ≠ []) (hcp : Counterpart c c' n n' s e)
    (hi : c.item? n = some i) (hd : i.dot = d + 1)
    (hle : (c'.unfolded n').count ≤ (c.unfolded n).count) :
    (∀ δ' ∈ c'.derivations n', ∃ δ, SameSplit lexer input c c' n n' s e δ δ') ∧
      ∀ m u v, Uses lexer input c (n, s, e) (m, u, v) →
        ∃ m', Counterpart c c' m m' u v ∧ (c'.unfolded m').count ≤ (c.unfolded m).count := by
  obtain ⟨j, hj, hover, hn'⟩ := id hcp
  obtain rfl := Option.some.inj (hi.symm.trans hj)
  obtain ⟨m, rest, hm, hperm⟩ := (hp n s e .refl).exists_matching hc hc' hcp hi hover hd
  rw [count_unfolded (hc.shallow ha hf hi) hi hd, count_unfolded (hc'.shallow ha hf hn') hn' hd,
    (hperm.flatMap_right _).length_eq, List.flatMap_append, List.length_append] at hle
  have hbelow (k k' u v : Nat) (hu : Uses lexer input c (n, s, e) (k, u, v))
      (hk : Counterpart c c' k k' u v) : (c.unfolded k).count ≤ (c'.unfolded k').count :=
    count_le hc hc' ha hf hk (fun m u v h => hp m u v (.head hu h))
  have hpair (δ δ' : Derivation) (h : SameSplit lexer input c c' n n' s e δ δ') :
      (c.contribution i c.unfolded δ).length ≤
        (c'.contribution ⟨i.number, i.dot, .offset s, .offset e⟩ c'.unfolded δ').length := by
    obtain ⟨p, y, hfound⟩ := hc.found_of_counts hi hover h.left
    exact (h.paired hc' hcp hi hfound).length_le hbelow
  have hmatched := length_flatMap_le hm hpair
  have hrest : rest = [] := by
    refine List.eq_nil_iff_forall_not_mem.2 (fun δ' hδ' => ?_)
    have hmem : δ' ∈ c'.derivations n' := hperm.mem_iff.2 (List.mem_append_right m hδ')
    obtain ⟨q, z, hfound⟩ := hc'.found_of_counts hn' (.inl ⟨rfl, rfl⟩) hmem
    have hpos := hfound.contribution_pos ⟨i.number, i.dot, .offset s, .offset e⟩ htexts
      (fun k hk => by
        have hneeds : c'.Needs n' k := ⟨δ', hmem, hk⟩
        obtain ⟨j', hj'⟩ := hc'.built.exists_item_of_links hneeds.links
        exact count_pos hc' ha hf htexts hj')
    have := length_flatMap_pos hδ' hpos
    omega
  rw [hrest, List.append_nil] at hperm
  refine ⟨fun δ' hδ' => ?_, fun k u v hu => ?_⟩
  · obtain ⟨δ, -, h⟩ := exists_of_forall₂ hm (hperm.mem_iff.1 hδ')
    exact ⟨δ, h⟩
  · have hpartner {δ : Derivation} {q : Nat} {z : Option g.RuleId} (hδ : δ ∈ c.derivations n)
        (hfound : Found lexer input c i s q e δ z) :
        (∀ b, δ.base = some b →
            ∃ b', Counterpart c c' b b' s q ∧ (c'.unfolded b').count ≤ (c.unfolded b).count) ∧
          ∀ a, δ.child = some a →
            ∃ a', Counterpart c c' a a' q e ∧ (c'.unfolded a').count ≤ (c.unfolded a).count := by
      obtain ⟨δ', -, h, heq⟩ := length_eq_of_length_flatMap_le hm hpair (by omega) hδ
      refine (h.paired hc' hcp hi hfound).count_le (fun k k' u v hu hk => ?_) htexts
        (Nat.le_of_eq heq.symm)
      refine ⟨hbelow k k' u v hu hk, ?_⟩
      obtain ⟨j', -, -, hj'⟩ := hk
      exact count_pos hc' ha hf htexts hj'
    cases hu with
    | base hi' hδ hfound hb =>
        obtain rfl := Option.some.inj (hi.symm.trans hi')
        exact (hpartner hδ hfound).1 k hb
    | child hi' hδ hfound hb =>
        obtain rfl := Option.some.inj (hi.symm.trans hi')
        exact (hpartner hδ hfound).2 k hb

/-- **No readings are missing only if all is complete.** -/
theorem complete_of_count_le (hc : Parsed strategy lexer input c)
    (hc' : Parsed .topDown lexer input c') (ha : Advances g lexer input) (hf : CycleFree g lexer input)
    (hp : ∀ m u v, ReflTransGen (Uses lexer input c) (n, s, e) (m, u, v) →
      OnlyPreferred lexer input c m u v)
    (htexts : ∀ t q m, lexer t input q = some m → m.texts ≠ []) (hcp : Counterpart c c' n n' s e)
    (hle : (c'.unfolded n').count ≤ (c.unfolded n).count) {m u v : Nat}
    (h : ReflTransGen (Uses lexer input c) (n, s, e) (m, u, v)) : Complete lexer input c m u v := by
  generalize ht : (n, s, e) = t at h
  induction h using ReflTransGen.head_induction_on generalizing n n' s e with
  | refl =>
      obtain ⟨rfl, rfl, rfl⟩ : n = m ∧ s = u ∧ e = v := by simpa using ht
      intro i hi d p y hd hpref
      obtain ⟨hpartner, -⟩ :=
        exists_partner_of_count_le hc hc' ha hf hp htexts hcp hi hd hle
      obtain ⟨j, hj, -, hn'⟩ := hcp
      obtain rfl := Option.some.inj (hi.symm.trans hj)
      obtain ⟨x', hx', hi'⟩ := Chart.item?_eq_some.1 hn'
      obtain ⟨δ', hδ', hf'⟩ := exists_counts_topDown hc' hx' (by rw [hi', hd]) hpref
      obtain ⟨δ, hsame⟩ := hpartner δ' hδ'
      obtain ⟨k, k', q, z, hk, hk', hg, hg'⟩ := hsame.found
      obtain rfl := Option.some.inj (hi.symm.trans hk)
      obtain rfl : x'.item = k' :=
        Option.some.inj ((Chart.item?_eq_some.2 ⟨x', hx', rfl⟩).symm.trans hk')
      obtain ⟨rfl, rfl⟩ := hf'.unique hg'
      exact ⟨δ, hsame.left, hg⟩
  | @head t t' hu _ ih =>
      subst ht
      obtain ⟨k, u', v'⟩ := t'
      have hdot : ∃ i d, c.item? n = some i ∧ i.dot = d + 1 := by
        cases hu with
        | base hi _ hfound _ =>
            obtain ⟨d, hd, -⟩ := hfound.splits hc.built hc.noGaps
            exact ⟨_, d, hi, hd⟩
        | child hi _ hfound _ =>
            obtain ⟨d, hd, -⟩ := hfound.splits hc.built hc.noGaps
            exact ⟨_, d, hi, hd⟩
      obtain ⟨i, d, hi, hd⟩ := hdot
      obtain ⟨-, huses⟩ := exists_partner_of_count_le hc hc' ha hf hp htexts hcp hi hd hle
      obtain ⟨k', hk, hle'⟩ := huses k u' v' hu
      exact ih (fun m u v h => hp m u v (.head hu h)) hk hle' rfl

end Parser

end ChartParsing
