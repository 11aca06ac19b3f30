import ChartParsing.Decimal.Layout
import ChartParsing.Proofs.Decimal.Neighbourhoods
import ChartParsing.Proofs.Grammar.Words
import Mathlib.Data.List.TakeWhile

/-!
# The texts of floating-point numbers

No two floating-point numbers have the same text: not two finite ones, whose digits lie in intervals that
have nothing in common, not the two zeros, and not those that are no numbers.  A floating-point number is
its bits here, where all values that are no number have the same bits, so `Binary.unpack` loses nothing.

* **`Binary.unpack_injective`**: sign, significand and power say which number it is.
* **`write_injective`**: so does the text.
* **`eq_one_of_beq`**: what compares as equal to one is one.
-/

namespace ChartParsing

open Float.Model Float.Model.UnpackedFloat

/-! ### Bits -/

namespace Binary

variable {x y : Float}

/-- The bits of what bits say. -/
def bits : Binary → Nat
  | nan => 0x7FF8000000000000
  | infinite negative => (if negative then 2 ^ 63 else 0) + 2047 * 2 ^ 52
  | finite negative significand power =>
      (if negative then 2 ^ 63 else 0) +
        if significand < 2 ^ 52 then significand
        else (power + 1075).toNat * 2 ^ 52 + (significand - 2 ^ 52)

theorem toNat_unpackExponent (b : BitVec 64) :
    (@unpackExponent Format.binary64 b).toNat = b.toNat / 2 ^ 52 % 2 ^ 11 := by
  simp [unpackExponent, Nat.shiftRight_eq_div_pow]

theorem toNat_unpackMantissa (b : BitVec 64) :
    (@unpackMantissa Format.binary64 b).toNat = b.toNat % 2 ^ 52 := by
  simp [unpackMantissa]

theorem toNat_unpackSign (b : BitVec 64) :
    (@unpackSign Format.binary64 b).toNat = b.toNat / 2 ^ 63 := by
  have hlt := b.isLt
  show (BitVec.cast _ (BitVec.extractLsb 63 63 b)).toNat = b.toNat / 2 ^ 63
  rw [BitVec.toNat_cast, BitVec.extractLsb_toNat, Nat.shiftRight_eq_div_pow]
  omega

/-- Of the values that are no number there is one only. -/
theorem toBits_of_nan (hexponent : x.toBits.toNat / 2 ^ 52 % 2 ^ 11 = 2047)
    (hfraction : x.toBits.toNat % 2 ^ 52 ≠ 0) : x.toBits.toNat = 0x7FF8000000000000 := by
  have hvalid : x.toBits.toBitVec = packedNaN Format.binary64 := by
    refine x.toModel.valid.eq_packedNaN (BitVec.eq_of_toNat_eq ?_) (fun hzero => hfraction ?_)
    · rw [toNat_unpackExponent]
      exact hexponent
    · rw [← UInt64.toNat_toBitVec, ← toNat_unpackMantissa]
      exact congrArg BitVec.toNat hzero
  rw [← UInt64.toNat_toBitVec, hvalid]
  decide

/-- Nothing gets lost. -/
theorem bits_unpack (x : Float) : (unpack x).bits = x.toBits.toNat := by
  have hlt : x.toBits.toNat < 2 ^ 64 := x.toBits.toNat_lt
  have hnan := toBits_of_nan (x := x)
  have htwo : pow2 52 = 2 ^ 52 ∧ pow2 11 = 2 ^ 11 ∧ pow2 63 = 2 ^ 63 := ⟨rfl, rfl, rfl⟩
  unfold unpack
  dsimp only
  rw [htwo.1, htwo.2.1, htwo.2.2]
  generalize x.toBits.toNat = n at hlt hnan ⊢
  have hsign : (if decide (2 ^ 63 ≤ n) = true then 2 ^ 63 else 0) = n / 2 ^ 63 * 2 ^ 63 := by
    split
    · next h => have := of_decide_eq_true h; omega
    · next h => have := mt decide_eq_true h; omega
  split
  · next hexponent =>
    split
    · next hfraction =>
      show (if decide (2 ^ 63 ≤ n) = true then 2 ^ 63 else 0) + 2047 * 2 ^ 52 = n
      omega
    · next hfraction => exact (hnan hexponent hfraction).symm
  · next hexponent =>
    split
    · next hzero =>
      show (if decide (2 ^ 63 ≤ n) = true then 2 ^ 63 else 0) + (if n % 2 ^ 52 < 2 ^ 52 then _ else _) = n
      rw [if_pos (Nat.mod_lt _ (by decide))]
      omega
    · next hzero =>
      have hfull : ¬ 2 ^ 52 + n % 2 ^ 52 < 2 ^ 52 := by omega
      show (if decide (2 ^ 63 ≤ n) = true then 2 ^ 63 else 0) +
        (if 2 ^ 52 + n % 2 ^ 52 < 2 ^ 52 then _ else _) = n
      rw [if_neg hfull]
      omega

theorem unpack_injective : Function.Injective unpack := by
  intro x y h
  have hbits : x.toBits = y.toBits :=
    UInt64.toNat_inj.1 (by rw [← bits_unpack, ← bits_unpack, h])
  obtain ⟨⟨a, ha⟩⟩ := x
  obtain ⟨⟨b, hb⟩⟩ := y
  obtain rfl : a = b := hbits
  rfl

/-- Finite numbers have all their bits, or the least power. -/
theorem canonical_of_unpack {negative : Bool} {m : Nat} {p : Int}
    (h : unpack x = .finite negative m p) : Decimal.Canonical m p := by
  have htwo : pow2 52 = 2 ^ 52 ∧ pow2 11 = 2 ^ 11 := ⟨rfl, rfl⟩
  unfold unpack at h
  dsimp only at h
  rw [htwo.1, htwo.2] at h
  generalize x.toBits.toNat = n at h
  split at h
  · split at h <;> simp at h
  · split at h
    · obtain ⟨-, rfl, rfl⟩ := finite.inj h
      exact ⟨by omega, by omega, by omega, by omega⟩
    · obtain ⟨-, rfl, rfl⟩ := finite.inj h
      exact ⟨by omega, by omega, by omega, by omega⟩

theorem ofBitVec_eq_negative (b : BitVec 64) :
    (Sign.ofBitVec (@unpackSign Format.binary64 b) == .negative) =
      decide (2 ^ 63 ≤ b.toNat) := by
  have hlt := b.isLt
  have hsign := toNat_unpackSign b
  unfold Sign.ofBitVec
  split
  · next hzero =>
    rw [hzero] at hsign
    have hsmall : ¬ 2 ^ 63 ≤ b.toNat := by
      intro hle
      have hone : b.toNat / 2 ^ 63 = 0 := hsign.symm
      omega
    rw [decide_eq_false hsmall]
    rfl
  · next hzero =>
    have hlarge : 2 ^ 63 ≤ b.toNat := by
      by_contra hnot
      exact hzero (BitVec.eq_of_toNat_eq (hsign.trans (by simp; omega)))
    rw [decide_eq_true hlarge]
    rfl

/-- The bits of a finite number are taken for the same where numbers are compared. -/
theorem unpack_of_finite {s : Sign} {m : Nat} {e : Int} {hm : 0 < m}
    (h : x.toModel.unpack = .finite s m e hm) : unpack x = .finite (s == .negative) m e := by
  have hexponent := toNat_unpackExponent x.toBits.toBitVec
  have hmantissa := toNat_unpackMantissa x.toBits.toBitVec
  have hsign := ofBitVec_eq_negative x.toBits.toBitVec
  have htwo : pow2 52 = 2 ^ 52 ∧ pow2 11 = 2 ^ 11 ∧ pow2 63 = 2 ^ 63 := ⟨rfl, rfl, rfl⟩
  change UnpackedFloat.unpack Format.binary64 x.toBits.toBitVec = _ at h
  unfold unpack
  dsimp only
  rw [htwo.1, htwo.2.1, htwo.2.2]
  rw [UInt64.toNat_toBitVec] at hexponent hmantissa hsign
  rw [← hexponent, ← hmantissa, ← hsign]
  unfold UnpackedFloat.unpack at h
  dsimp only at h
  by_cases hinfinite : @unpackExponent Format.binary64 x.toBits.toBitVec =
      -BitVec.ofNat Format.binary64.exponentBits 1
  · rw [if_pos hinfinite] at h
    by_cases hfraction : @unpackMantissa Format.binary64 x.toBits.toBitVec =
        BitVec.ofNat Format.binary64.mantissaBitsWithoutImplicit 0
    · rw [if_pos hfraction] at h
      cases h
    · rw [if_neg hfraction] at h
      cases h
  · have hfinite : (@unpackExponent Format.binary64 x.toBits.toBitVec).toNat ≠ 2047 :=
      fun h => hinfinite (BitVec.eq_of_toNat_eq h)
    rw [if_neg hinfinite] at h
    rw [if_neg hfinite]
    by_cases hzero : @unpackExponent Format.binary64 x.toBits.toBitVec =
        BitVec.ofNat Format.binary64.exponentBits 0
    · rw [if_pos hzero] at h
      by_cases hfraction : @unpackMantissa Format.binary64 x.toBits.toBitVec =
          BitVec.ofNat Format.binary64.mantissaBitsWithoutImplicit 0
      · rw [dif_pos hfraction] at h
        cases h
      · rw [dif_neg hfraction] at h
        obtain ⟨rfl, rfl, rfl⟩ := UnpackedFloat.finite.inj h
        rw [hzero]
        rfl
    · have hnormal : (@unpackExponent Format.binary64 x.toBits.toBitVec).toNat ≠ 0 :=
        fun h => hzero (BitVec.eq_of_toNat_eq h)
      rw [if_neg hzero] at h
      obtain ⟨rfl, rfl, rfl⟩ := UnpackedFloat.finite.inj h
      rw [if_neg hnormal, BitVec.toNat_append, ← Nat.shiftLeft_add_eq_or_of_lt (BitVec.isLt _)]
      rfl

/-- **What compares as equal to one is one.** -/
theorem eq_one_of_beq (h : (x == 1.0) = true) : x = 1.0 := by
  have hone : (1.0 : Float).toModel.unpack = .finite .positive (2 ^ 52) (-52) (by decide) := rfl
  have hcompare : x.toModel.unpack.compare (.finite .positive (2 ^ 52) (-52) (by decide)) = some .eq := by
    rw [← hone]
    exact eq_of_beq h
  refine unpack_injective ?_
  rw [unpack_of_finite hone]
  cases hx : x.toModel.unpack with
  | notANumber =>
      rw [hx] at hcompare
      exact absurd hcompare.symm (Option.some_ne_none _)
  | infinity s =>
      rw [hx] at hcompare
      cases s with
      | negative => exact absurd (Option.some.inj hcompare) (by decide)
      | positive => exact absurd (Option.some.inj hcompare) (by decide)
  | zero s =>
      rw [hx] at hcompare
      exact absurd (Option.some.inj hcompare) (by decide)
  | finite s m e hm =>
      rw [hx] at hcompare
      cases s with
      | negative => exact absurd (Option.some.inj hcompare) (by decide)
      | positive =>
          have heq : (compare e (-52)).then (compare m (2 ^ 52)) = .eq := Option.some.inj hcompare
          obtain ⟨he, hm'⟩ := Ordering.then_eq_eq.1 heq
          obtain rfl := Std.LawfulEqOrd.eq_of_compare he
          obtain rfl := Std.LawfulEqOrd.eq_of_compare hm'
          rw [unpack_of_finite hx]

end Binary

namespace Decimal

open Lexeme

/-! ### Digits in places -/

/-- The number that digits with at most one point among them stand for. -/
def placesValue (t : Text) : ℚ :=
  digitsValue (t.filter (· ≠ '.')) / 10 ^ ((t.dropWhile (· ≠ '.')).length - 1)

variable {a b : Text}

theorem placesValue_whole (ha : '.' ∉ a) : placesValue a = digitsValue a := by
  have hall : ∀ c ∈ a, decide (c ≠ '.') = true := by
    intro c hc
    simpa using fun h : c = '.' => ha (h ▸ hc)
  unfold placesValue
  rw [List.filter_eq_self.2 hall, List.dropWhile_eq_nil_iff.2 hall]
  simp

theorem placesValue_point (ha : '.' ∉ a) (hb : '.' ∉ b) :
    placesValue (a ++ '.' :: b) = digitsValue (a ++ b) / 10 ^ b.length := by
  have hall {w : Text} (hw : '.' ∉ w) : ∀ c ∈ w, decide (c ≠ '.') = true := by
    intro c hc
    simpa using fun h : c = '.' => hw (h ▸ hc)
  unfold placesValue
  rw [List.filter_append, List.filter_cons_of_neg (by simp), List.filter_eq_self.2 (hall ha),
    List.filter_eq_self.2 (hall hb), List.dropWhile_append_of_pos (hall ha),
    List.dropWhile_cons_of_neg (by simp), List.length_cons, Nat.add_sub_cancel]

theorem point_not_mem_toDigits (n : Nat) : '.' ∉ Nat.toDigits 10 n := by
  intro h
  exact absurd (isDigit_of_mem_toDigits h) (by decide)

theorem point_not_mem_zeros (n : Nat) : '.' ∉ zeros n := by
  intro h
  exact absurd (List.eq_of_mem_replicate h) (by decide)

theorem digitsValue_append_zeros (t : Text) (n : Nat) :
    digitsValue (t ++ zeros n) = 10 ^ n * digitsValue t := by
  show Nat.ofDigitChars 10 (t ++ zeros n) 0 = 10 ^ n * Nat.ofDigitChars 10 t 0
  rw [Nat.ofDigitChars_append]
  exact Nat.ofDigitChars_replicate_zero

theorem digitsValue_zeros_append (n : Nat) (t : Text) :
    digitsValue (zeros n ++ t) = digitsValue t := by
  show Nat.ofDigitChars 10 (zeros n ++ t) 0 = Nat.ofDigitChars 10 t 0
  rw [Nat.ofDigitChars_append]
  congr 1
  exact Nat.ofDigitChars_replicate_zero.trans (Nat.mul_zero _)

/-- **Digits in places** stand for the number that they were written for. -/
theorem placesValue_inPlaces (d : Digits) : placesValue (d.inPlaces "").toList = d.value := by
  have hds := point_not_mem_toDigits d.digits
  have hvalue : (digitsValue (Nat.toDigits 10 d.digits) : ℚ) = d.digits := by
    rw [digitsValue_toDigits]
  unfold Digits.inPlaces
  dsimp only
  split
  · next hpower =>
    have hpoint : '.' ∉ Nat.toDigits 10 d.digits ++ zeros d.power.toNat := by
      simp [hds, point_not_mem_zeros]
    have htext : (String.ofList (Nat.toDigits 10 d.digits ++ zeros d.power.toNat) ++ "").toList =
        Nat.toDigits 10 d.digits ++ zeros d.power.toNat := by simp
    rw [htext, placesValue_whole hpoint, digitsValue_append_zeros]
    push_cast
    rw [hvalue, mul_comm, Digits.value]
    congr 1
    rw [← zpow_natCast, Int.toNat_of_nonneg hpower]
  · next hpower =>
    have hplaces_eq : d.value = d.digits / 10 ^ (-d.power).toNat := by
      rw [Digits.value, div_eq_mul_inv, ← zpow_natCast, ← zpow_neg, Int.toNat_of_nonneg (by omega),
        neg_neg]
    generalize (-d.power).toNat = places at hplaces_eq ⊢
    generalize Nat.toDigits 10 d.digits = ds at hds hvalue ⊢
    rw [hplaces_eq, ← hvalue]
    split
    · next hplaces =>
      have htext : (String.ofList (ds.take (ds.length - places)) ++ "." ++
          String.ofList (ds.drop (ds.length - places))).toList =
            ds.take (ds.length - places) ++ '.' :: ds.drop (ds.length - places) := by simp
      have hlength : (ds.drop (ds.length - places)).length = places := by
        rw [List.length_drop]
        omega
      rw [htext, placesValue_point (fun h => hds (List.mem_of_mem_take h))
        (fun h => hds (List.mem_of_mem_drop h)), List.take_append_drop, hlength]
    · next hplaces =>
      have htext : ("0." ++ String.ofList (zeros (places - ds.length) ++ ds)).toList =
          zeros 1 ++ '.' :: (zeros (places - ds.length) ++ ds) := by simp [zeros]
      have hpoint : '.' ∉ zeros (places - ds.length) ++ ds := by simp [hds, point_not_mem_zeros]
      have hlength : (zeros (places - ds.length) ++ ds).length = places := by
        rw [List.length_append, zeros, List.length_replicate]
        omega
      rw [htext, placesValue_point (point_not_mem_zeros 1) hpoint, digitsValue_zeros_append,
        digitsValue_zeros_append, hlength]

/-! ### Texts -/

/-- Is there a minus sign in front? -/
def isNegative : Binary → Bool
  | .nan => false
  | .infinite negative => negative
  | .finite negative _ _ => negative

/-- The text without the sign. -/
def unsigned : Binary → Text
  | .nan => "NaN".toList
  | .infinite _ => "inf".toList
  | .finite _ significand power =>
      ((if significand = 0 then ⟨0, 0⟩ else shortest .up significand power).inPlaces "").toList

theorem toList_write (x : Float) : (plain.write x).toList =
    (if isNegative (Binary.unpack x) then ['-'] else []) ++ unsigned (Binary.unpack x) := by
  unfold Layout.write
  cases Binary.unpack x with
  | nan => rfl
  | infinite negative => cases negative <;> rfl
  | finite negative m p =>
      dsimp only [isNegative, unsigned]
      split
      · cases negative <;> simp [plain]
      · cases negative <;> simp [plain]

/-- Digits in places start with a digit. -/
theorem head?_inPlaces (d : Digits) :
    ∃ c, (d.inPlaces "").toList.head? = some c ∧ c.isDigit = true := by
  obtain ⟨c, cs, hcs⟩ := List.exists_cons_of_ne_nil (Nat.toDigits_ne_nil (b := 10) (n := d.digits))
  have hc : c.isDigit = true := isDigit_of_mem_toDigits (n := d.digits) (by simp [hcs])
  unfold Digits.inPlaces
  dsimp only
  rw [hcs]
  split
  · exact ⟨c, by simp, hc⟩
  · split
    · next hplaces =>
      refine ⟨c, ?_, hc⟩
      obtain ⟨k, hk⟩ : ∃ k, (c :: cs).length - (-d.power).toNat = k + 1 :=
        Nat.exists_eq_add_one.2 (by omega)
      rw [hk]
      simp
    · exact ⟨'0', by simp, rfl⟩

/-- Without its sign a text starts with no minus sign. -/
theorem head?_unsigned (n : Binary) : ∃ c, (unsigned n).head? = some c ∧ c ≠ '-' := by
  cases n with
  | nan => exact ⟨'N', rfl, by decide⟩
  | infinite _ => exact ⟨'i', rfl, by decide⟩
  | finite _ m p =>
      obtain ⟨c, hc, hdigit⟩ := head?_inPlaces (if m = 0 then ⟨0, 0⟩ else shortest .up m p)
      exact ⟨c, hc, by rintro rfl; exact absurd hdigit (by decide)⟩

/-- Significands and powers are told apart by their texts. -/
theorem eq_of_unsigned {negative negative' : Bool} {m m' : Nat} {p p' : Int} (hc : Canonical m p)
    (hc' : Canonical m' p')
    (h : unsigned (.finite negative m p) = unsigned (.finite negative' m' p')) :
    m = m' ∧ p = p' := by
  have hvalue := congrArg placesValue h
  dsimp only [unsigned] at hvalue
  rw [placesValue_inPlaces, placesValue_inPlaces] at hvalue
  have hzero : (Digits.mk 0 0).value = 0 := by simp [Digits.value]
  have hleast {m : Nat} {p : Int} (hc : Canonical m p) (hm : m = 0) : p = -1074 := by
    by_contra hne
    have hfull := hc.full hne
    omega
  by_cases hm : m = 0
  · by_cases hm' : m' = 0
    · exact ⟨hm.trans hm'.symm, (hleast hc hm).trans (hleast hc' hm').symm⟩
    · rw [if_pos hm, if_neg hm', hzero] at hvalue
      exact absurd hvalue (shortest_pos .up hm' hc').ne
  · by_cases hm' : m' = 0
    · rw [if_neg hm, if_pos hm', hzero] at hvalue
      exact absurd hvalue (shortest_pos .up hm hc).ne'
    · rw [if_neg hm, if_neg hm'] at hvalue
      exact shortest_injective hm hm' hc hc' hvalue

theorem head?_unsigned_finite {negative : Bool} {m : Nat} {p : Int} {e : Char} (he : e.isDigit = false) :
    (unsigned (.finite negative m p)).head? ≠ some e := by
  intro hhead
  obtain ⟨c, hc, hdigit⟩ := head?_inPlaces (if m = 0 then ⟨0, 0⟩ else shortest .up m p)
  obtain rfl := Option.some.inj (hc.symm.trans hhead)
  exact absurd hdigit (by simp [he])

/-- The minus sign is in both texts or in none. -/
theorem sign_eq {a b : Binary}
    (h : (if isNegative a then ['-'] else []) ++ unsigned a =
      (if isNegative b then ['-'] else []) ++ unsigned b) :
    isNegative a = isNegative b ∧ unsigned a = unsigned b := by
  obtain ⟨c, hc, hcsign⟩ := head?_unsigned a
  obtain ⟨d, hd, hdsign⟩ := head?_unsigned b
  have hhead := congrArg List.head? h
  cases ha : isNegative a <;> cases hb : isNegative b <;> rw [ha, hb] at h hhead
  · exact ⟨rfl, h⟩
  · exact absurd (Option.some.inj (hc.symm.trans hhead)) hcsign
  · exact absurd (Option.some.inj (hd.symm.trans hhead.symm)) hdsign
  · exact ⟨rfl, List.append_cancel_left h⟩

/-- Values of one sign are told apart by their texts without it. -/
theorem unsigned_injective {a b : Binary} (ha : ∀ n m p, a = .finite n m p → Canonical m p)
    (hb : ∀ n m p, b = .finite n m p → Canonical m p) (hsign : isNegative a = isNegative b)
    (h : unsigned a = unsigned b) : a = b := by
  have hhead := congrArg List.head? h
  cases a with
  | nan =>
      cases b with
      | nan => rfl
      | infinite _ => exact absurd hhead (show some 'N' ≠ some 'i' by decide)
      | finite _ _ _ => exact absurd hhead.symm (head?_unsigned_finite (by decide))
  | infinite _ =>
      cases b with
      | nan => exact absurd hhead (show some 'i' ≠ some 'N' by decide)
      | infinite _ => exact congrArg _ hsign
      | finite _ _ _ => exact absurd hhead.symm (head?_unsigned_finite (by decide))
  | finite _ _ _ =>
      cases b with
      | nan => exact absurd hhead (head?_unsigned_finite (by decide))
      | infinite _ => exact absurd hhead (head?_unsigned_finite (by decide))
      | finite _ _ _ =>
          obtain ⟨rfl, rfl⟩ := eq_of_unsigned (ha _ _ _ rfl) (hb _ _ _ rfl) h
          exact congrArg (Binary.finite · _ _) hsign

/-- **No two numbers have the same text.** -/
theorem write_injective : Function.Injective plain.write := by
  intro x y h
  have htext := congrArg String.toList h
  rw [toList_write, toList_write] at htext
  obtain ⟨hsign, hunsigned⟩ := sign_eq htext
  exact Binary.unpack_injective (unsigned_injective (fun _ _ _ => Binary.canonical_of_unpack)
    (fun _ _ _ => Binary.canonical_of_unpack) hsign hunsigned)

/-! ### Characters -/

theorem isEntityChar_of_isDigit {c : Char} (h : c.isDigit = true) : isEntityChar c = true :=
  isEntityChar_of_isNameChar (by simp [isNameChar, Char.isAlphanum, h])

theorem isActionChar_of_mem_zeros {c : Char} {n : Nat} (h : c ∈ zeros n) : isActionChar c = true := by
  rw [List.eq_of_mem_replicate h]
  decide

theorem isActionChar_of_mem_inPlaces {d : Digits} {c : Char} (h : c ∈ (d.inPlaces "").toList) :
    isActionChar c = true := by
  have hds : ∀ c ∈ Nat.toDigits 10 d.digits, isActionChar c = true :=
    fun c hc => isActionChar_of_isEntityChar (isEntityChar_of_isDigit (isDigit_of_mem_toDigits hc))
  have hpoint : isActionChar '.' = true := by decide
  unfold Digits.inPlaces at h
  dsimp only at h
  split at h
  · simp only [String.toList_append, String.toList_ofList, List.mem_append] at h
    rcases h with (h | h) | h
    · exact hds c h
    · exact isActionChar_of_mem_zeros h
    · simp at h
  · split at h
    · simp only [String.toList_append, String.toList_ofList, List.mem_append] at h
      rcases h with (h | h) | h
      · exact hds c (List.mem_of_mem_take h)
      · obtain rfl := List.mem_singleton.1 h
        exact hpoint
      · exact hds c (List.mem_of_mem_drop h)
    · simp only [String.toList_append, String.toList_ofList, List.mem_append] at h
      rcases h with h | h | h
      · rcases List.mem_cons.1 h with rfl | h
        · decide
        · obtain rfl := List.mem_singleton.1 h
          exact hpoint
      · exact isActionChar_of_mem_zeros h
      · exact hds c h

theorem isActionChar_of_mem_write {x : Float} {c : Char} (h : c ∈ (plain.write x).toList) :
    isActionChar c = true := by
  rw [toList_write, List.mem_append] at h
  rcases h with h | h
  · split at h
    · obtain rfl := List.mem_singleton.1 h
      decide
    · simp at h
  · cases hx : Binary.unpack x with
    | nan =>
        rw [hx] at h
        exact List.all_eq_true.1 (show "NaN".toList.all isActionChar = true by decide) c h
    | infinite _ =>
        rw [hx] at h
        exact List.all_eq_true.1 (show "inf".toList.all isActionChar = true by decide) c h
    | finite _ m p =>
        rw [hx] at h
        exact isActionChar_of_mem_inPlaces h

theorem isEntityChar_of_mem_intText {p : Int} {c : Char} (h : c ∈ (intText p).toList) :
    isEntityChar c = true := by
  rw [toList_intText] at h
  split at h
  · rcases List.mem_cons.1 h with rfl | h
    · decide
    · exact isEntityChar_of_isDigit (isDigit_of_mem_toDigits h)
  · exact isEntityChar_of_isDigit (isDigit_of_mem_toDigits h)

/-- **No two integers have the same text.** -/
theorem intText_injective : Function.Injective intText := by
  intro p q h
  have htext := congrArg String.toList h
  rw [toList_intText, toList_intText] at htext
  have hdigit {n : Nat} : '-' ∉ Nat.toDigits 10 n :=
    fun h => absurd (isDigit_of_mem_toDigits h) (by decide)
  have hvalue {m n : Nat} (h : Nat.toDigits 10 m = Nat.toDigits 10 n) : m = n := by
    rw [← digitsValue_toDigits m, h, digitsValue_toDigits]
  split at htext
  · split at htext
    · have hsame := hvalue (List.cons.inj htext).2
      omega
    · exact absurd (htext ▸ List.mem_cons_self) hdigit
  · split at htext
    · exact absurd (htext ▸ List.mem_cons_self) hdigit
    · have hsame := hvalue htext
      omega

end Decimal

end ChartParsing
