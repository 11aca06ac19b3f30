import ChartParsing.Proofs.Agreement.Derivations
import ChartParsing.Proofs.Forest.Unfolding
import ChartParsing.Proofs.Parsing.Justification
import ChartParsing.Proofs.Recognition.Cycles

/-!
# Readings of two charts

Without actions the value and the trace of a reading depend on those of its arguments alone: its
`essence`.  Two charts of one input agree on the readings of an edge as far as the derivations that count
do, over all that the edge is made of.

An edge of any chart is compared with the edge of the top-down chart that has its symbols over its
stretch, its `Counterpart`.

Main statement: **`agrees_of_complete`**.  If all that an edge uses is complete, its counterpart has the
same readings, each as many times.
-/

namespace ChartParsing

/-! ### Matched lists -/

section Matching

variable {α β γ : Type} {R : α → β → Prop} {l : List α} {l' m : List β}

theorem exists_forall₂ (h : ∀ a ∈ l, ∃ b ∈ l', R a b) : ∃ m, List.Forall₂ R l m ∧ m ⊆ l' := by
  induction l with
  | nil => exact ⟨[], .nil, List.nil_subset _⟩
  | cons a l ih =>
      obtain ⟨b, hb, hab⟩ := h a List.mem_cons_self
      obtain ⟨m, hm, hsub⟩ := ih (fun x hx => h x (List.mem_cons_of_mem _ hx))
      exact ⟨b :: m, .cons hab hm, List.cons_subset.2 ⟨hb, hsub⟩⟩

theorem exists_of_forall₂ (h : List.Forall₂ R l m) {b : β} (hb : b ∈ m) : ∃ a ∈ l, R a b := by
  induction h with
  | nil => simp at hb
  | @cons a b' l m hab _ ih =>
      rcases List.mem_cons.1 hb with rfl | hb
      · exact ⟨a, List.mem_cons_self, hab⟩
      · obtain ⟨x, hx, hxb⟩ := ih hb
        exact ⟨x, List.mem_cons_of_mem _ hx, hxb⟩

theorem nodup_of_forall₂ (h : List.Forall₂ R l m) (hl : l.Nodup)
    (hinj : ∀ a a' b, R a b → R a' b → a = a') : m.Nodup := by
  induction h with
  | nil => exact List.nodup_nil
  | @cons a b l m hab h ih =>
      obtain ⟨ha, hl⟩ := List.nodup_cons.1 hl
      refine List.nodup_cons.2 ⟨fun hb => ?_, ih hl⟩
      obtain ⟨x, hx, hxb⟩ := exists_of_forall₂ h hb
      rw [hinj a x b hab hxb] at ha
      exact ha hx

/-- A list whose members each have a partner of their own in another list is matched with a part of
it. -/
theorem exists_matching (hl : l.Nodup) (htotal : ∀ a ∈ l, ∃ b ∈ l', R a b)
    (hinj : ∀ a a' b, R a b → R a' b → a = a') :
    ∃ m rest, List.Forall₂ R l m ∧ l'.Perm (m ++ rest) := by
  obtain ⟨m, hm, hsub⟩ := exists_forall₂ htotal
  obtain ⟨k, hk, hks⟩ := List.subperm_of_subset (nodup_of_forall₂ hm hl hinj) hsub
  obtain ⟨rest, hrest⟩ := hks.exists_perm_append
  exact ⟨m, rest, hm, hrest.trans (hk.append_right rest)⟩

/-- It is matched with all of that list, if every member there is a partner of one here. -/
theorem exists_matching_perm (hl : l.Nodup) (hl' : l'.Nodup) (htotal : ∀ a ∈ l, ∃ b ∈ l', R a b)
    (hinj : ∀ a a' b, R a b → R a' b → a = a') (hsurj : ∀ b ∈ l', ∃ a ∈ l, R a b)
    (huniq : ∀ a b b', R a b → R a b' → b = b') : ∃ m, List.Forall₂ R l m ∧ m.Perm l' := by
  obtain ⟨m, hm, hsub⟩ := exists_forall₂ htotal
  refine ⟨m, hm, (List.perm_ext_iff_of_nodup (nodup_of_forall₂ hm hl hinj) hl').2 ?_⟩
  refine fun b => ⟨fun hb => hsub hb, fun hb => ?_⟩
  obtain ⟨a, ha, hab⟩ := hsurj b hb
  clear hsurj htotal hl
  induction hm with
  | nil => simp at ha
  | @cons x y l m hxy _ ih =>
      rcases List.mem_cons.1 ha with rfl | ha
      · rw [huniq a b y hab hxy]
        exact List.mem_cons_self
      · exact List.mem_cons_of_mem _ (ih (fun z hz => hsub (List.mem_cons_of_mem _ hz)) ha)

theorem perm_flatMap_of_forall₂ {F : α → List γ} {G : β → List γ} (h : List.Forall₂ R l m)
    (hFG : ∀ a b, R a b → (F a).Perm (G b)) : (l.flatMap F).Perm (m.flatMap G) := by
  induction h with
  | nil => exact List.Perm.refl _
  | cons hab _ ih =>
      rw [List.flatMap_cons, List.flatMap_cons]
      exact (hFG _ _ hab).append ih

end Matching

/-! ### Essences -/

/-- What a reading says: its value, and the text that shows how it came about. -/
def Reading.essence (r : Reading) : Value × String := (r.value, r.trace)

namespace Arguments

/-- What several readings say. -/
def essence (args : Arguments) : List (Value × String) := args.map Reading.essence

theorem map_essence_product (lists : List Arguments) (readings : List Reading) :
    (product lists readings).map essence =
      (lists.map essence).flatMap (fun es =>
        (readings.map Reading.essence).map (fun e => es ++ [e])) := by
  unfold product
  rw [List.map_flatMap, List.flatMap_map]
  refine List.flatMap_congr (fun args _ => ?_)
  simp [extendBy, essence, Function.comp_def]

theorem product_perm {lists lists' : List Arguments} {readings readings' : List Reading}
    (h : (lists.map essence).Perm (lists'.map essence))
    (h' : (readings.map Reading.essence).Perm (readings'.map Reading.essence)) :
    ((product lists readings).map essence).Perm ((product lists' readings').map essence) := by
  rw [map_essence_product, map_essence_product]
  exact List.Perm.flatMap h (fun es _ => h'.map _)

end Arguments

/-- What a reading of a rule without an action says. -/
def nodeEssence (lhs : String) (es : List (Value × String)) : Value × String :=
  (match es.map Prod.fst with
    | [] => .null
    | [v] => v
    | vs => .list vs,
    lhs ++ "(" ++ String.intercalate ", " (es.map Prod.snd) ++ ")")

theorem essence_reading {rules : Array Rule} {i : Item rules} (h : i.rule.action = none)
    (args : Arguments) : (i.reading args).essence = nodeEssence i.lhs args.essence := by
  have hvalues : args.essence.map Prod.fst = args.values := by
    simp [Arguments.essence, Arguments.values, Reading.essence]
  have htraces : args.essence.map Prod.snd = args.map Reading.trace := by
    simp [Arguments.essence, Reading.essence]
  unfold nodeEssence
  rw [hvalues, htraces]
  unfold Item.reading Arguments.apply
  rw [h]
  rfl

/-- Two expansions say the same, each thing as many times. -/
structure Expansion.Agrees (u v : Expansion) : Prop where
  readings : (u.toReadings.map Reading.essence).Perm (v.toReadings.map Reading.essence)
  arguments : (u.toArguments.map Arguments.essence).Perm (v.toArguments.map Arguments.essence)

/-- Items with the same symbols left of the dot expand alike. -/
theorem agrees_expansion {rules : Array Rule} {i i' : Item rules} (hn : i'.number = i.number)
    (hd : i'.dot = i.dot) (ha : i.rule.action = none) {lists lists' : List Arguments}
    (h : (lists.map Arguments.essence).Perm (lists'.map Arguments.essence)) :
    (i.expansion lists).Agrees (i'.expansion lists') := by
  have hrule : i'.rule = i.rule := congrArg (fun r : Fin rules.size => rules[r]) hn
  have hreduced : i'.isReduced = i.isReduced := by
    unfold Item.isReduced
    rw [hrule, hd]
  have hlhs : i'.lhs = i.lhs := by
    unfold Item.lhs
    rw [hrule]
  unfold Item.expansion
  rw [hreduced]
  by_cases hr : i.isReduced = true
  · rw [if_pos hr, if_pos hr]
    refine ⟨?_, List.Perm.nil⟩
    have hmap {j : Item rules} (hj : j.rule.action = none) (ls : List Arguments) :
        (ls.map j.reading).map Reading.essence =
          (ls.map Arguments.essence).map (nodeEssence j.lhs) := by
      rw [List.map_map, List.map_map]
      exact List.map_congr_left (fun args _ => essence_reading hj args)
    show ((lists.map i.reading).map Reading.essence).Perm
      ((lists'.map i'.reading).map Reading.essence)
    rw [hmap ha, hmap (hrule ▸ ha), hlhs]
    exact h.map _
  · rw [if_neg hr, if_neg hr]
    exact ⟨List.Perm.nil, h⟩

namespace Parser

open Relation

variable {g : Grammar} {strategy : Strategy} {lexer : Lexer} {input : Text}
  {c c' : Chart g.rules} {i i' : Item g.rules} {d h n n' s e p : Nat} {δ δ' : Derivation}
  {y : Option g.RuleId}

/-! ### Counterparts -/

/-- The edge of the second chart has the symbols of the first one's edge, at the place that this edge is
looked at. -/
def Counterpart (c c' : Chart g.rules) (n n' s e : Nat) : Prop :=
  ∃ i, c.item? n = some i ∧ i.Over s e ∧ c'.item? n' = some ⟨i.number, i.dot, .offset s, .offset e⟩

/-- A derivation that counts of an edge over a stretch refers to the other edge over a part of it. -/
inductive Uses (lexer : Lexer) (input : Text) (c : Chart g.rules) :
    Nat × Nat × Nat → Nat × Nat × Nat → Prop
  | base {n b s p e : Nat} {i : Item g.rules} {δ : Derivation} {y : Option g.RuleId}
      (hi : c.item? n = some i) (hδ : δ ∈ c.derivations n) (h : Found lexer input c i s p e δ y)
      (hb : δ.base = some b) : Uses lexer input c (n, s, e) (b, s, p)
  | child {n b s p e : Nat} {i : Item g.rules} {δ : Derivation} {y : Option g.RuleId}
      (hi : c.item? n = some i) (hδ : δ ∈ c.derivations n) (h : Found lexer input c i s p e δ y)
      (hb : δ.child = some b) : Uses lexer input c (n, s, e) (b, p, e)

theorem Uses.needs {t t' : Nat × Nat × Nat} (h : Uses lexer input c t t') : c.Needs t.1 t'.1 := by
  cases h with
  | base hi hδ h hb => exact ⟨_, hδ, by simp [Derivation.links, hb]⟩
  | child hi hδ h hb => exact ⟨_, hδ, by simp [Derivation.links, hb]⟩

/-- Derivations that count of an edge and of its counterpart, and that were found at one split. -/
structure SameSplit (lexer : Lexer) (input : Text) (c c' : Chart g.rules) (n n' s e : Nat)
    (δ δ' : Derivation) : Prop where
  left : δ ∈ c.derivations n
  right : δ' ∈ c'.derivations n'
  found : ∃ i i' p y, c.item? n = some i ∧ c'.item? n' = some i' ∧
    Found lexer input c i s p e δ y ∧ Found lexer input c' i' s p e δ' y

theorem SameSplit.left_unique (hc : Parsed strategy lexer input c) {δ₁ δ₂ : Derivation}
    (h₁ : SameSplit lexer input c c' n n' s e δ₁ δ') (h₂ : SameSplit lexer input c c' n n' s e δ₂ δ') :
    δ₁ = δ₂ := by
  obtain ⟨i, i', p, y, hi, hi', hf, hf'⟩ := h₁.found
  obtain ⟨j, j', q, z, hj, hj', hg, hg'⟩ := h₂.found
  obtain rfl := Option.some.inj (hi.symm.trans hj)
  obtain rfl := Option.some.inj (hi'.symm.trans hj')
  obtain ⟨rfl, rfl⟩ := hf'.unique hg'
  obtain ⟨x, hx, rfl⟩ := Chart.item?_eq_some.1 hi
  exact Found.eq_of_counts hc hx h₁.left h₂.left hf hg

theorem SameSplit.right_unique (hc' : Parsed strategy lexer input c') {δ₁ δ₂ : Derivation}
    (h₁ : SameSplit lexer input c c' n n' s e δ δ₁) (h₂ : SameSplit lexer input c c' n n' s e δ δ₂) :
    δ₁ = δ₂ := by
  obtain ⟨i, i', p, y, hi, hi', hf, hf'⟩ := h₁.found
  obtain ⟨j, j', q, z, hj, hj', hg, hg'⟩ := h₂.found
  obtain rfl := Option.some.inj (hi.symm.trans hj)
  obtain rfl := Option.some.inj (hi'.symm.trans hj')
  obtain ⟨rfl, rfl⟩ := hf.unique hg
  obtain ⟨x, hx, rfl⟩ := Chart.item?_eq_some.1 hi'
  exact Found.eq_of_counts hc' hx h₁.right h₂.right hf' hg'

/-- The counterpart has a derivation that counts for each preferred split at which one was found here. -/
theorem exists_sameSplit (hc' : Parsed .topDown lexer input c') (hcp : Counterpart c c' n n' s e)
    (hi : c.item? n = some i) (hd : i.dot = d + 1) (hδ : δ ∈ c.derivations n)
    (hf : Found lexer input c i s p e δ y) (hp : PreferredSplit lexer input i.number d s p e y) :
    ∃ δ' ∈ c'.derivations n', SameSplit lexer input c c' n n' s e δ δ' := by
  obtain ⟨j, hj, -, hn'⟩ := hcp
  obtain rfl := Option.some.inj (hi.symm.trans hj)
  obtain ⟨x', hx', hx⟩ := Chart.item?_eq_some.1 hn'
  rw [hd] at hx
  obtain ⟨δ', hδ', hf'⟩ := exists_counts_topDown hc' hx' hx hp
  exact ⟨δ', hδ', hδ, hδ', i, x'.item, p, y, hi, Chart.item?_eq_some.2 ⟨x', hx', rfl⟩, hf, hf'⟩

/-- What two derivations refer to that were found at the split at `p`. -/
inductive Paired (lexer : Lexer) (input : Text) (c c' : Chart g.rules) (n s p e : Nat) :
    Derivation → Derivation → Prop
  | terminal {b b' : Nat} {o : Item g.rules} {t : Symbol} {m : Match} (ho : c.item? b = some o)
      (ht : o.next? = some t) (hm : lexer t input p = some m) (hb : Counterpart c c' b b' s p)
      (hu : Uses lexer input c (n, s, e) (b, s, p)) :
      Paired lexer input c c' n s p e ⟨some b, none, some m.texts⟩ ⟨some b', none, some m.texts⟩
  | nonterminal {b b' a a' : Nat} {o f : Item g.rules} (ho : c.item? b = some o)
      (hf : c.item? a = some f) (ht : o.Takes f) (hb : Counterpart c c' b b' s p)
      (hu : Uses lexer input c (n, s, e) (b, s, p)) (ha : Counterpart c c' a a' p e)
      (hu' : Uses lexer input c (n, s, e) (a, p, e)) :
      Paired lexer input c c' n s p e ⟨some b, some a, none⟩ ⟨some b', some a', none⟩

theorem counterpart_of_over (hc' : Built .topDown lexer input c') {b b' : Nat} {o o' : Item g.rules}
    (ho : c.item? b = some o) (ho' : c'.item? b' = some o') (hn : o'.number = o.number)
    (hd : o'.dot = o.dot) (hover : o.Over s p) (hover' : o'.Over s p) : Counterpart c c' b b' s p := by
  refine ⟨o, ho, hover, ?_⟩
  have hplace : o'.start = .offset s ∧ o'.stop = .offset p := by
    rcases hover' with h | ⟨h, -⟩
    · exact h
    · exact absurd h (hc'.start_ne_anywhere ⟨b', ho'⟩)
  rw [ho', ← hn, ← hd, ← hplace.1, ← hplace.2]

theorem SameSplit.paired (hc' : Parsed .topDown lexer input c') (hcp : Counterpart c c' n n' s e)
    (h : SameSplit lexer input c c' n n' s e δ δ') (hi : c.item? n = some i)
    (hf : Found lexer input c i s p e δ y) : Paired lexer input c c' n s p e δ δ' := by
  obtain ⟨j, i', q, z, hj, hi', hf₁, hf'⟩ := h.found
  obtain rfl := Option.some.inj (hi.symm.trans hj)
  obtain ⟨rfl, rfl⟩ := hf.unique hf₁
  have hcounts := h.left
  have heq : i'.number = i.number ∧ i'.dot = i.dot := by
    obtain ⟨j, hj, -, hn'⟩ := hcp
    obtain rfl := Option.some.inj (hi.symm.trans hj)
    obtain rfl := Option.some.inj (hi'.symm.trans hn')
    exact ⟨rfl, rfl⟩
  have hnext {o o' : Item g.rules} (hn : o'.number = o.number) (hd : o'.dot = o.dot) :
      o'.next? = o.next? := by
    have hrule : o'.rule = o.rule := congrArg g.rule hn
    unfold Item.next?
    rw [hrule, hd]
  have hfound := hf
  cases hf with
  | @terminal b o t m ho hn hd hover ht hs hm he =>
      cases hf' with
      | @terminal b' o' t' m' ho' hn' hd' hover' ht' hs' hm' he' =>
          have hno : o'.number = o.number := hn'.trans (heq.1.trans hn.symm)
          have hdo : o'.dot = o.dot := by
            have := heq.2
            omega
          obtain rfl : t' = t := by
            rw [hnext hno hdo] at ht'
            exact Option.some.inj (ht'.symm.trans ht)
          obtain rfl : m' = m := Option.some.inj (hm'.symm.trans hm)
          exact .terminal ho ht hm (counterpart_of_over hc'.built ho ho' hno hdo hover hover')
            (.base hi hcounts hfound rfl)
  | @nonterminal b a o f ho ha hj hover hover₁ hd ht =>
      generalize hz : some f.number = z at hf'
      cases hf' with
      | terminal _ _ _ _ _ _ _ _ => exact absurd hz (by simp)
      | @nonterminal b' a' o' f' ho' ha' hj' hover' hover₁' hd' ht' =>
          have hfn : f'.number = f.number := (Option.some.inj hz).symm
          have hfd : f'.dot = f.dot := by
            rw [hd', hd]
            exact congrArg (fun r => (g.rule r).length) hfn
          have hno : o'.number = o.number := by
            have hn := heq.1
            rw [hj, hj'] at hn
            exact hn
          have hdo : o'.dot = o.dot := by
            have hd := heq.2
            rw [hj, hj'] at hd
            exact Nat.succ.inj hd
          exact .nonterminal ho ha ht (counterpart_of_over hc'.built ho ho' hno hdo hover hover')
            (.base hi hcounts hfound rfl)
            (counterpart_of_over hc'.built ha ha' hfn hfd hover₁ hover₁')
            (.child hi hcounts hfound rfl)

/-! ### Heights -/

/-- The links of an edge lead to edges. -/
theorem Built.exists_item_of_links (hc : Built strategy lexer input c) {m : Nat} (h : c.Links n m) :
    ∃ j, c.item? m = some j := by
  obtain ⟨x, hx, δ, hδ, hm⟩ := Chart.links_iff.1 h
  exact (hc.traced.step n x hx δ hδ).exists_item hm

/-- Where no edge leads back to itself, chains of derivations that count are short. -/
theorem Built.shallow (hc : Built strategy lexer input c) (hacyclic : ∀ m, ¬ TransGen c.Links m m)
    (hn : c.item? n = some i) : Shallow c.Needs c.size n := by
  refine shallow_of_acyclic (fun m k hm _ => ?_) (fun m _ h => ?_)
  · rcases hm.cases_tail with rfl | ⟨y, -, hy⟩
    · exact Chart.lt_size_of_item? hn
    · obtain ⟨j, hj⟩ := hc.exists_item_of_links hy.links
      exact Chart.lt_size_of_item? hj
  · exact hacyclic m (TransGen.mono (fun _ _ => Chart.Needs.links) m m h)

/-- So they are where no nonterminal derives itself. -/
theorem Parsed.shallow (hc : Parsed strategy lexer input c) (ha : Advances g lexer input)
    (hf : CycleFree g lexer input) (hn : c.item? n = some i) : Shallow c.Needs c.size n :=
  hc.built.shallow (fun _ => hc.built.acyclic hc.noGaps ha hf) hn

/-! ### Complete edges have the same readings -/

theorem map_essence_leaves (i o : Item g.rules) (texts : List String) :
    (i.leaves o texts).map Reading.essence =
      texts.map (fun text => (.text text, "\"" ++ text ++ "\"")) := by
  unfold Item.leaves
  rw [List.map_map]
  rfl

/-- Paired derivations bring the same arguments, if what they refer to says the same. -/
theorem Paired.perm_contribution (h : Paired lexer input c c' n s p e δ δ')
    (ih : ∀ m m' u v, Uses lexer input c (n, s, e) (m, u, v) → Counterpart c c' m m' u v →
      (c.unfolded m).Agrees (c'.unfolded m')) :
    ((c.contribution i c.unfolded δ).map Arguments.essence).Perm
      ((c'.contribution i' c'.unfolded δ').map Arguments.essence) := by
  cases h with
  | @terminal b b' o t m ho ht hm hb hu =>
      have hbase := (ih b b' s p hu hb).arguments
      obtain ⟨o₁, ho₁, -, hb'⟩ := hb
      unfold Chart.contribution
      dsimp only
      rw [ho₁, hb']
      refine Arguments.product_perm hbase ?_
      rw [map_essence_leaves, map_essence_leaves]
  | @nonterminal b b' a a' o f ho hf ht hb hu ha hu' =>
      exact Arguments.product_perm (ih b b' s p hu hb).arguments (ih a a' p e hu' ha).readings

/-- What counts of an edge was found at a split. -/
theorem Parsed.found_of_counts (hc : Parsed strategy lexer input c) (hi : c.item? n = some i)
    (hover : i.Over s e) (hδ : δ ∈ c.derivations n) : ∃ p y, Found lexer input c i s p e δ y := by
  obtain ⟨x, hx, rfl⟩ := Chart.item?_eq_some.1 hi
  obtain ⟨z, hz, hmem⟩ := Chart.exists_mem_of_mem_derivations hδ
  obtain rfl := Option.some.inj (hx.symm.trans hz)
  exact hc.built.found hc.noGaps hx hmem hover

/-- What is paired with the derivations of a complete edge are the derivations of its counterpart. -/
theorem exists_matching_of_complete (hc : Parsed strategy lexer input c)
    (hc' : Parsed .topDown lexer input c') (hcp : Counterpart c c' n n' s e)
    (hn : Complete lexer input c n s e) (hi : c.item? n = some i) (hd : i.dot = d + 1) :
    ∃ m, List.Forall₂ (SameSplit lexer input c c' n n' s e) (c.derivations n) m ∧
      m.Perm (c'.derivations n') := by
  obtain ⟨j, hj, hover, hn'⟩ := hcp
  obtain rfl := Option.some.inj (hi.symm.trans hj)
  have hcp : Counterpart c c' n n' s e := ⟨i, hi, hover, hn'⟩
  refine exists_matching_perm (hc.wellFormed.nodup_derivations n) (hc'.wellFormed.nodup_derivations n')
    (fun δ hδ => ?_) (fun _ _ _ h h' => h.left_unique hc h') (fun δ' hδ' => ?_)
    (fun _ _ _ h h' => h.right_unique hc' h')
  · obtain ⟨p, y, hf⟩ := hc.found_of_counts hi hover hδ
    obtain ⟨x, hx, rfl⟩ := Chart.item?_eq_some.1 hi
    exact exists_sameSplit hc' hcp hi hd hδ hf (hn.preferredSplit hc hx hd hδ hf)
  · obtain ⟨p, y, hf'⟩ := hc'.found_of_counts hn' (.inl ⟨rfl, rfl⟩) hδ'
    obtain ⟨x', hx', hi'⟩ := Chart.item?_eq_some.1 hn'
    have hp : PreferredSplit lexer input i.number d s p e y := by
      rw [← hi'] at hf'
      rw [hd] at hi'
      exact preferredSplit_topDown hc' hx' hi' hδ' hf'
    obtain ⟨δ, hδ, hf⟩ := hn i hi d p y hd hp
    exact ⟨δ, hδ, hδ, hδ', i, _, p, y, hi, hn', hf, hf'⟩

/-- One step of the comparison: an edge agrees with its counterpart if it is complete and all that it
uses agrees. -/
theorem agrees_step (hc : Parsed strategy lexer input c) (hc' : Parsed .topDown lexer input c')
    (hg : ∀ r : g.RuleId, (g.rule r).action = none) (hcp : Counterpart c c' n n' s e)
    (hs : Shallow c.Needs c.size n) (hs' : Shallow c'.Needs c'.size n')
    (hn : Complete lexer input c n s e)
    (ih : ∀ m m' u v, Uses lexer input c (n, s, e) (m, u, v) → Counterpart c c' m m' u v →
      (c.unfolded m).Agrees (c'.unfolded m')) :
    (c.unfolded n).Agrees (c'.unfolded n') := by
  obtain ⟨i, hi, hover, hn'⟩ := hcp
  have ha : i.rule.action = none := hg i.number
  rw [Chart.unfolded_eq hs hi, Chart.unfolded_eq hs' hn']
  show Expansion.Agrees _ (if i.isPredicted then _ else _)
  by_cases hp : i.isPredicted = true
  · rw [if_pos hp, if_pos hp]
    exact agrees_expansion (by rfl) (by rfl) ha (List.Perm.refl _)
  · rw [if_neg hp, if_neg hp]
    obtain ⟨d, hd⟩ : ∃ d, i.dot = d + 1 := by
      refine Nat.exists_eq_succ_of_ne_zero (fun h => hp ?_)
      exact decide_eq_true h
    obtain ⟨m, hm, hperm⟩ :=
      exists_matching_of_complete hc hc' ⟨i, hi, hover, hn'⟩ hn hi hd
    refine agrees_expansion (by rfl) (by rfl) ha ?_
    rw [List.map_flatMap, List.map_flatMap]
    refine (perm_flatMap_of_forall₂ hm (fun δ δ' h => ?_)).trans (hperm.flatMap_right _)
    obtain ⟨p, y, hf⟩ := hc.found_of_counts hi hover h.left
    exact (h.paired hc' ⟨i, hi, hover, hn'⟩ hi hf).perm_contribution ih

/-- **Complete edges have the same readings.**  If an edge and all that it uses are complete, it agrees
with its counterpart. -/
theorem agrees_of_complete (hc : Parsed strategy lexer input c) (hc' : Parsed .topDown lexer input c')
    (ha : Advances g lexer input) (hf : CycleFree g lexer input)
    (hg : ∀ r : g.RuleId, (g.rule r).action = none) (hcp : Counterpart c c' n n' s e)
    (hn : ∀ m u v, ReflTransGen (Uses lexer input c) (n, s, e) (m, u, v) →
      Complete lexer input c m u v) :
    (c.unfolded n).Agrees (c'.unfolded n') := by
  have hs : Shallow c.Needs c.size n := by
    obtain ⟨i, hi, -, -⟩ := hcp
    exact hc.shallow ha hf hi
  refine hs.induction (P := fun n => ∀ n' s e, Counterpart c c' n n' s e →
    (∀ m u v, ReflTransGen (Uses lexer input c) (n, s, e) (m, u, v) →
      Complete lexer input c m u v) →
    (c.unfolded n).Agrees (c'.unfolded n')) ?_ n' s e hcp hn
  intro n ih n' s e hcp hn
  have hs : Shallow c.Needs c.size n ∧ Shallow c'.Needs c'.size n' := by
    obtain ⟨i, hi, -, hn'⟩ := hcp
    exact ⟨hc.shallow ha hf hi, hc'.shallow ha hf hn'⟩
  refine agrees_step hc hc' hg hcp hs.1 hs.2 (hn n s e .refl) (fun m m' u v hu hcp' => ?_)
  exact ih m hu.needs m' u v hcp' (fun k u' v' hk => hn k u' v' (.head hu hk))

end Parser

end ChartParsing
