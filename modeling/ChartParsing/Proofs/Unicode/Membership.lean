import ChartParsing.Unicode.Property
import ChartParsing.Text.Blank

/-!
# Members of sets of characters

The operations on sets of characters are done on their runs.  On runs in order they do what they
say: **`contains_union`**, **`contains_complement`** and **`contains_diff`** are the laws of
membership, and each operation leaves its runs in order.

The word characters are put together from many tables.  None of these holds a blank, a comma or the
sign of a comment, so none of these is a word character: **`CharClass.clear_word`**.
-/

namespace ChartParsing

namespace CharSet

variable {n k lo hi : Nat} {runs : List (Nat × Nat)} {s t : CharSet}

/-! ### Runs in order -/

/-- The runs begin no lower than this, are not empty, and come in order without meeting. -/
def Rising : Nat → List (Nat × Nat) → Prop
  | _, [] => True
  | k, (a, b) :: rest => k ≤ a ∧ a ≤ b ∧ Rising (b + 1) rest

instance decidableRising : (k : Nat) → (runs : List (Nat × Nat)) → Decidable (Rising k runs)
  | _, [] => isTrue trivial
  | k, (a, b) :: rest =>
      have := decidableRising (b + 1) rest
      inferInstanceAs (Decidable (k ≤ a ∧ a ≤ b ∧ Rising (b + 1) rest))

/-- One of the runs holds the code point. -/
def Covers (runs : List (Nat × Nat)) (n : Nat) : Prop := ∃ r ∈ runs, r.1 ≤ n ∧ n ≤ r.2

theorem covers_nil : ¬ Covers [] n := by simp [Covers]

theorem covers_cons {a b : Nat} : Covers ((a, b) :: runs) n ↔ (a ≤ n ∧ n ≤ b) ∨ Covers runs n := by
  simp [Covers]

theorem covers_append {runs' : List (Nat × Nat)} :
    Covers (runs ++ runs') n ↔ Covers runs n ∨ Covers runs' n := by
  simp only [Covers, List.mem_append, or_and_right, exists_or]

theorem Rising.mono (h : Rising k runs) (hle : lo ≤ k) : Rising lo runs := by
  cases runs with
  | nil => trivial
  | cons r rest => exact ⟨Nat.le_trans hle h.1, h.2⟩

theorem Rising.le (h : Rising k runs) (hn : Covers runs n) : k ≤ n := by
  induction runs generalizing k with
  | nil => exact absurd hn covers_nil
  | cons r rest ih =>
      obtain ⟨hk, hr, hrest⟩ := h
      rcases covers_cons.1 hn with hn | hn
      · omega
      · have := ih hrest hn
        omega

/-- The search may stop at a run beyond. -/
theorem hasCode_iff (h : Rising k runs) : hasCode n runs = true ↔ Covers runs n := by
  induction runs generalizing k with
  | nil => simp [hasCode, covers_nil]
  | cons r rest ih =>
      obtain ⟨a, b⟩ := r
      obtain ⟨hk, hab, hrest⟩ := h
      unfold hasCode
      rw [covers_cons]
      by_cases hlow : n < a
      · rw [if_pos hlow]
        refine iff_of_false (by simp) ?_
        rintro (hn | hn)
        · omega
        · have := hrest.le hn
          omega
      · rw [if_neg hlow]
        by_cases hhigh : n ≤ b
        · rw [if_pos hhigh]
          exact iff_of_true rfl (.inl ⟨by omega, hhigh⟩)
        · rw [if_neg hhigh, ih hrest]
          exact ⟨.inr, fun hn => hn.resolve_left (fun hr => hhigh hr.2)⟩

/-! ### Adding a run -/

theorem covers_insertRun (h : Rising k runs) (hle : lo ≤ hi) :
    Covers (insertRun lo hi runs) n ↔ (lo ≤ n ∧ n ≤ hi) ∨ Covers runs n := by
  induction runs generalizing k lo hi with
  | nil => simp [insertRun, covers_cons]
  | cons r rest ih =>
      obtain ⟨a, b⟩ := r
      obtain ⟨-, hab, hrest⟩ := h
      unfold insertRun
      split
      · rw [covers_cons]
      · split
        · rw [covers_cons, covers_cons, ih hrest hle]
          exact or_left_comm
        · -- the two runs meet or touch, so between their ends there is nothing else
          rw [covers_cons, ih hrest (by omega), ← or_assoc]
          refine or_congr_left ?_
          omega

theorem rising_insertRun (h : Rising k runs) (hk : k ≤ lo) (hle : lo ≤ hi) :
    Rising k (insertRun lo hi runs) := by
  induction runs generalizing k lo hi with
  | nil => exact ⟨hk, hle, trivial⟩
  | cons r rest ih =>
      obtain ⟨a, b⟩ := r
      obtain ⟨hka, hab, hrest⟩ := h
      unfold insertRun
      split
      · exact ⟨hk, hle, by omega, hab, hrest⟩
      · split
        · exact ⟨hka, hab, ih hrest (by omega) hle⟩
        · exact ih (hrest.mono (by omega)) (by omega) (by omega)

/-- The runs of the set are in order. -/
def Ordered (s : CharSet) : Prop := Rising 0 s.runs

theorem contains_iff (h : s.Ordered) (c : Char) : s.contains c = true ↔ Covers s.runs c.toNat :=
  hasCode_iff h

theorem Rising.le_of_mem (h : Rising k runs) {r : Nat × Nat} (hr : r ∈ runs) : r.1 ≤ r.2 := by
  induction runs generalizing k with
  | nil => simp at hr
  | cons q rest ih =>
      rcases List.mem_cons.1 hr with rfl | hr
      · exact h.2.1
      · exact ih h.2.2 hr

/-- Adding runs one after the other. -/
theorem foldr_insertRun (hs : Rising 0 s.runs) (hruns : ∀ r ∈ runs, r.1 ≤ r.2) :
    Rising 0 (runs.foldr (fun r acc => insertRun r.1 r.2 acc) s.runs) ∧
      ∀ n, Covers (runs.foldr (fun r acc => insertRun r.1 r.2 acc) s.runs) n ↔
        Covers runs n ∨ Covers s.runs n := by
  induction runs with
  | nil => exact ⟨hs, fun n => by simp [covers_nil]⟩
  | cons r rest ih =>
      obtain ⟨hrising, hcovers⟩ := ih (fun q hq => hruns q (List.mem_cons_of_mem _ hq))
      have hr := hruns r List.mem_cons_self
      refine ⟨rising_insertRun hrising (Nat.zero_le _) hr, fun n => ?_⟩
      rw [List.foldr_cons, covers_insertRun hrising hr, hcovers, covers_cons, or_assoc]

theorem ordered_union (hs : s.Ordered) (ht : t.Ordered) : (s.union t).Ordered :=
  (foldr_insertRun hs (fun _ hr => ht.le_of_mem hr)).1

/-- **Membership in either set.** -/
theorem contains_union (hs : s.Ordered) (ht : t.Ordered) (c : Char) :
    (s.union t).contains c = (s.contains c || t.contains c) := by
  rw [Bool.eq_iff_iff, Bool.or_eq_true, contains_iff hs, contains_iff ht,
    contains_iff (ordered_union hs ht), or_comm]
  exact (foldr_insertRun hs (fun _ hr => ht.le_of_mem hr)).2 c.toNat

/-! ### What is left out -/

theorem covers_gaps (h : Rising k runs) :
    Covers (gaps lo hi runs) n ↔ lo ≤ n ∧ n ≤ hi ∧ ¬ Covers runs n := by
  induction runs generalizing k lo with
  | nil =>
      unfold gaps
      split
      · simp [covers_cons, covers_nil]
      · simp only [covers_nil, not_false_eq_true, and_true, false_iff]
        omega
  | cons r rest ih =>
      obtain ⟨a, b⟩ := r
      obtain ⟨-, hab, hrest⟩ := h
      have hbeyond : Covers rest n → b + 1 ≤ n := hrest.le
      unfold gaps
      rw [covers_cons]
      split
      · -- all runs are beyond
        split
        · simp only [covers_cons, covers_nil, or_false]
          refine ⟨fun hn => ⟨hn.1, hn.2, ?_⟩, fun hn => ⟨hn.1, hn.2.1⟩⟩
          rintro (hr | hr)
          · omega
          · have := hbeyond hr
            omega
        · simp only [covers_nil, false_iff]
          omega
      · split
        · rw [covers_cons, ih hrest]
          constructor
          · rintro (hn | ⟨hlo, hhi, hr⟩)
            · refine ⟨hn.1, by omega, ?_⟩
              rintro (hr | hr)
              · omega
              · have := hbeyond hr
                omega
            · exact ⟨by omega, hhi, fun h => h.elim (by omega) hr⟩
          · rintro ⟨hlo, hhi, hr⟩
            by_cases hn : n < a
            · exact .inl ⟨hlo, by omega⟩
            · exact .inr ⟨by omega, hhi, fun h => hr (.inr h)⟩
        · rw [ih hrest]
          constructor
          · rintro ⟨hlo, hhi, hr⟩
            exact ⟨by omega, hhi, fun h => h.elim (by omega) hr⟩
          · rintro ⟨hlo, hhi, hr⟩
            have hb : ¬ n ≤ b := fun hn => hr (.inl ⟨by omega, hn⟩)
            exact ⟨by omega, hhi, fun h => hr (.inr h)⟩

theorem rising_gaps (h : Rising k runs) : Rising lo (gaps lo hi runs) := by
  induction runs generalizing k lo with
  | nil =>
      unfold gaps
      split
      · exact ⟨Nat.le_refl lo, by assumption, trivial⟩
      · trivial
  | cons r rest ih =>
      obtain ⟨a, b⟩ := r
      obtain ⟨-, hab, hrest⟩ := h
      unfold gaps
      split
      · split
        · exact ⟨Nat.le_refl lo, by assumption, trivial⟩
        · trivial
      · split
        · exact ⟨Nat.le_refl lo, by omega, (ih hrest).mono (by omega)⟩
        · exact (ih hrest).mono (Nat.le_max_left _ _)

theorem rising_append {runs' : List (Nat × Nat)} (h : Rising k runs) (h' : Rising lo runs')
    (hlo : k ≤ lo) (hle : ∀ r ∈ runs, r.2 < lo) : Rising k (runs ++ runs') := by
  induction runs generalizing k with
  | nil => exact h'.mono hlo
  | cons r rest ih =>
      exact ⟨h.1, h.2.1, ih h.2.2 (hle r List.mem_cons_self)
        (fun q hq => hle q (List.mem_cons_of_mem _ hq))⟩

theorem le_of_mem_gaps (h : Rising k runs) {r : Nat × Nat} (hr : r ∈ gaps lo hi runs) : r.2 ≤ hi := by
  have hrising : Rising lo (gaps lo hi runs) := rising_gaps h
  have hle := hrising.le_of_mem hr
  exact ((covers_gaps h).1 ⟨r, hr, hle, Nat.le_refl _⟩).2.1

theorem ordered_complement (hs : s.Ordered) : s.complement.Ordered :=
  rising_append (rising_gaps hs) (rising_gaps hs) (Nat.zero_le _)
    (fun _ hr => Nat.lt_of_le_of_lt (le_of_mem_gaps hs hr) (by decide))

/-- **Membership in the complement.** -/
theorem contains_complement (hs : s.Ordered) (c : Char) :
    s.complement.contains c = !s.contains c := by
  have hvalid : c.toNat < 0xD800 ∨ 0xDFFF < c.toNat ∧ c.toNat < 0x110000 := c.valid
  rw [Bool.eq_iff_iff, Bool.not_eq_true', ← Bool.not_eq_true, contains_iff hs,
    contains_iff (ordered_complement hs)]
  unfold complement
  rw [covers_append, covers_gaps hs, covers_gaps hs]
  constructor
  · rintro (h | h) <;> exact h.2.2
  · intro h
    rcases hvalid with hlow | hhigh
    · exact .inl ⟨Nat.zero_le _, by omega, h⟩
    · exact .inr ⟨by omega, by omega, h⟩

/-- **Membership in the difference.** -/
theorem contains_diff (hs : s.Ordered) (ht : t.Ordered) (c : Char) :
    (s.diff t).Ordered ∧ (s.diff t).contains c = (s.contains c && !t.contains c) := by
  have hs' := ordered_complement hs
  have ht' := ordered_complement (ordered_complement ht)
  refine ⟨ordered_complement (ordered_union hs' ht'), ?_⟩
  unfold diff inter
  rw [contains_complement (ordered_union hs' ht'), contains_union hs' ht', contains_complement hs,
    contains_complement (ordered_complement ht), contains_complement ht]
  simp

/-! ### What ends a word -/

/-- The character ends every word: it is a blank, the sign of a comment or a comma. -/
def EndsWord (c : Char) : Prop := isBlank c = true ∨ c = '#' ∨ c = ','

/-- The code points of these characters. -/
def endCodes : List Nat :=
  [0x09, 0x0A, 0x0B, 0x0C, 0x0D, 0x20, 0x23, 0x2C, 0x85, 0xA0, 0x1680, 0x2000, 0x2001, 0x2002,
    0x2003, 0x2004, 0x2005, 0x2006, 0x2007, 0x2008, 0x2009, 0x200A, 0x2028, 0x2029, 0x202F, 0x205F,
    0x3000]

theorem toNat_mem_endCodes {c : Char} (h : EndsWord c) : c.toNat ∈ endCodes := by
  rcases h with h | rfl | rfl
  · have hcovers := (contains_iff (s := blanks) (by unfold Ordered; decide) c).1 h
    simp only [blanks, covers_cons, covers_nil, or_false] at hcovers
    simp only [endCodes, List.mem_cons, List.not_mem_nil, or_false]
    omega
  · decide
  · decide

/-- To know something of all characters that end words, look at each of them. -/
theorem EndsWord.forall {P : Char → Prop} {c : Char} (h : EndsWord c)
    (hP : ∀ n ∈ endCodes, P (Char.ofNat n)) : P c := by
  rw [← Char.ofNat_toNat c]
  exact hP _ (toNat_mem_endCodes h)

/-- The set is in order, and holds no character that ends words. -/
structure Clear (s : CharSet) : Prop where
  ordered : s.Ordered
  spare : ∀ c, EndsWord c → s.contains c = false

theorem clear_of_codes (h : Rising 0 s.runs) (hcodes : ∀ n ∈ endCodes, hasCode n s.runs = false) :
    s.Clear :=
  ⟨h, fun _ hc => hcodes _ (toNat_mem_endCodes hc)⟩

/-- A table is read from the list of its characters. -/
theorem runs_ofTable {P : List (Nat × Nat) → Prop} {table : List Char}
    (h : P (readRuns none none table)) : P (ofTable (String.ofList table)).runs := by
  unfold ofTable
  rwa [String.toList_ofList]

theorem clear_ofTable {table : List Char} (h : Rising 0 (readRuns none none table) ∧
    ∀ n ∈ endCodes, hasCode n (readRuns none none table) = false) :
    (ofTable (String.ofList table)).Clear :=
  runs_ofTable (P := fun runs => (⟨runs⟩ : CharSet).Clear) (clear_of_codes h.1 h.2)

theorem Clear.union (hs : s.Clear) (ht : t.Clear) : (s.union t).Clear where
  ordered := ordered_union hs.ordered ht.ordered
  spare c hc := by
    rw [contains_union hs.ordered ht.ordered, hs.spare c hc, ht.spare c hc]
    rfl

theorem Clear.diff (hs : s.Clear) (ht : t.Ordered) : (s.diff t).Clear where
  ordered := (contains_diff hs.ordered ht '#').1
  spare c hc := by
    rw [(contains_diff hs.ordered ht c).2, hs.spare c hc]
    rfl

theorem clear_setOf {categories : List Category} (h : ∀ k ∈ categories, k.set.Clear) :
    (Category.setOf categories).Clear := by
  have hall : ∀ s : CharSet, s.Clear →
      (categories.foldl (fun s k => s.union k.set) s).Clear := by
    induction categories with
    | nil => exact fun s hs => hs
    | cons k rest ih =>
        intro s hs
        exact ih (fun k' hk => h k' (List.mem_cons_of_mem _ hk)) _
          (hs.union (h k List.mem_cons_self))
  exact hall empty ⟨trivial, fun _ _ => rfl⟩

end CharSet

namespace CharClass

set_option maxRecDepth 100000

theorem clear_cased : ∀ k ∈ [Category.lu, .ll, .lt], k.set.Clear := by
  simp only [List.forall_mem_cons]
  refine ⟨?_, ?_, ?_, by simp⟩ <;> exact CharSet.clear_ofTable (by decide +kernel)

theorem clear_uncased : ∀ k ∈ [Category.lm, .lo, .nl], k.set.Clear := by
  simp only [List.forall_mem_cons]
  refine ⟨?_, ?_, ?_, by simp⟩ <;> exact CharSet.clear_ofTable (by decide +kernel)

theorem clear_marks : ∀ k ∈ [Category.mn, .mc, .me], k.set.Clear := by
  simp only [List.forall_mem_cons]
  refine ⟨?_, ?_, ?_, by simp⟩ <;> exact CharSet.clear_ofTable (by decide +kernel)

theorem clear_others : ∀ k ∈ [Category.nd, .pc], k.set.Clear := by
  simp only [List.forall_mem_cons]
  refine ⟨?_, ?_, by simp⟩ <;> exact CharSet.clear_ofTable (by decide +kernel)

theorem clear_letters : letters.Clear := by
  refine CharSet.Clear.diff (CharSet.Clear.union (CharSet.clear_setOf (fun k hk => ?_)) ?_) trivial
  · rcases List.mem_append.1 (show k ∈ [Category.lu, .ll, .lt] ++ [.lm, .lo, .nl] from hk) with hk | hk
    · exact clear_cased k hk
    · exact clear_uncased k hk
  · exact CharSet.clear_ofTable (by decide +kernel)

theorem clear_digits : digits.Clear := clear_others .nd List.mem_cons_self

theorem contains_digits {c : Char} (h : c.isDigit = true) : digits.contains c = true := by
  have hall : ∀ n ∈ List.range' 48 10, CharSet.hasCode n digits.runs = true :=
    CharSet.runs_ofTable (P := fun runs => ∀ n ∈ List.range' 48 10, CharSet.hasCode n runs = true)
      (by decide +kernel)
  have hcode : 48 ≤ c.toNat ∧ c.toNat ≤ 57 := by
    simpa [Char.isDigit, UInt32.le_iff_toNat_le] using h
  exact hall c.toNat (List.mem_range'_1.2 (by omega))

/-- **Word characters end no words.** -/
theorem clear_word : word.Clear := by
  refine CharSet.Clear.union (CharSet.Clear.union (CharSet.Clear.union clear_letters ?_) ?_) ?_
  · exact CharSet.clear_setOf clear_marks
  · exact CharSet.clear_setOf clear_others
  · exact CharSet.clear_of_codes (by decide) (by decide)

end CharClass

end ChartParsing
