import Mathlib
import Solid.Decimal
namespace Solid.Doubles
open Float.Model Float.Model.UnpackedFloat
open Decimal (Binary)

abbrev double : Format := .binary64

def parts (x : Float) : UnpackedFloat := x.toModel.unpack

def signOf (negative : Bool) : Sign := if negative then .negative else .positive

def ofBinary (b : Binary) : UnpackedFloat :=
  if h : b.significand = 0 then .zero (signOf b.negative)
  else .finite (signOf b.negative) b.significand b.exponent (Nat.pos_of_ne_zero h)

theorem mantissa_bits (b : BitVec double.numBits) :
    (unpackMantissa b).toNat = b.toNat % 2 ^ 52 := by
  simp [unpackMantissa, BitVec.extractLsb]

theorem exponent_bits (b : BitVec double.numBits) :
    (unpackExponent b).toNat = b.toNat / 2 ^ 52 % 2 ^ 11 := by
  simp [unpackExponent, BitVec.extractLsb, Nat.shiftRight_eq_div_pow]

theorem sign_bits (b : BitVec double.numBits) :
    Sign.ofBitVec (unpackSign b) = signOf (decide (2 ^ 63 ≤ b.toNat)) := by
  have bound : b.toNat < 2 ^ 64 := b.isLt
  have bit : (unpackSign b).toNat = b.toNat / 2 ^ 63 := by
    simp only [unpackSign, BitVec.extractLsb, BitVec.toNat_cast, BitVec.extractLsb'_toNat,
      Nat.shiftRight_eq_div_pow]
    omega
  have clear : unpackSign b = 0#1 ↔ b.toNat < 2 ^ 63 := by
    rw [← BitVec.toNat_inj, bit, BitVec.toNat_ofNat]
    omega
  unfold Sign.ofBitVec signOf
  by_cases low : b.toNat < 2 ^ 63
  · rw [if_pos (clear.mpr low), if_neg (by simpa using low)]
  · rw [if_neg (fun zero => low (clear.mp zero)), if_pos (by simpa using low)]

theorem implicit_bit (v : BitVec 52) : (1#1 ++ v).toNat = 2 ^ 52 + v.toNat := by
  rw [BitVec.toNat_append, ← Nat.shiftLeft_add_eq_or_of_lt v.isLt]
  simp [Nat.shiftLeft_eq]

theorem parts_finite (x : Float) (finite : x.isFinite) : parts x = ofBinary (Binary.ofFloat x) := by
  have bias : ((double.exponentBias : Nat) : Int) = 1023 := rfl
  change (UnpackedFloat.unpack double x.toModel.toBits.toBitVec).isFinite = true at finite
  change UnpackedFloat.unpack double x.toModel.toBits.toBitVec = _
  unfold Binary.ofFloat Float.toBits
  generalize x.toModel.toBits = w at *
  have fraction := mantissa_bits w.toBitVec
  have field := exponent_bits w.toBitVec
  have sign := sign_bits w.toBitVec
  simp only [UInt64.toNat_toBitVec] at fraction field sign
  simp only [Decimal.twoTo, Nat.pow_eq]
  unfold UnpackedFloat.unpack at finite ⊢
  dsimp only at finite ⊢
  split at finite
  · split at finite <;> cases finite
  · rename_i below
    rw [if_neg below]
    split
    · rename_i zero
      have least : w.toNat / 2 ^ 52 % 2 ^ 11 = 0 := by
        rw [← field, zero]
        rfl
      simp only [least, ↓reduceIte, ofBinary, ← fraction]
      split
      · rename_i none
        simp [none, sign]
      · rename_i some
        have nonzero : (@unpackMantissa double w.toBitVec).toNat ≠ 0 := fun none =>
          some (BitVec.eq_of_toNat_eq none)
        rw [dif_neg nonzero]
        simp [sign, zero, bias]
    · rename_i positive
      have more : (@unpackExponent double w.toBitVec).toNat ≠ 0 := fun none =>
        positive (BitVec.eq_of_toNat_eq none)
      simp only [ofBinary, ← fraction, ← field, sign, if_neg more, implicit_bit]
      rw [dif_neg (by omega)]
      congr 1

-- A normal number fills the significand; a subnormal one has the least exponent.
structure Canonical (b : Binary) : Prop where
  small : b.significand < 2 ^ 53
  least : -1074 ≤ b.exponent
  greatest : b.exponent ≤ 971
  full : 2 ^ 52 ≤ b.significand ∨ b.exponent = -1074

theorem finite_field (x : Float) (finite : x.isFinite) :
    x.toBits.toNat / 2 ^ 52 % 2 ^ 11 ≠ 2047 := by
  intro full
  have field := exponent_bits x.toModel.toBits.toBitVec
  have top : @unpackExponent double x.toModel.toBits.toBitVec = -1#11 := by
    apply BitVec.eq_of_toNat_eq
    rw [field]
    exact full
  change (UnpackedFloat.unpack double x.toModel.toBits.toBitVec).isFinite = true at finite
  unfold UnpackedFloat.unpack at finite
  simp only [top, ↓reduceIte] at finite
  split at finite <;> cases finite

theorem ofFloat_canonical (x : Float) (finite : x.isFinite) : Canonical (Binary.ofFloat x) := by
  have proper := finite_field x finite
  have top : x.toBits.toNat / 2 ^ 52 % 2 ^ 11 < 2 ^ 11 := Nat.mod_lt _ (by decide)
  have low : x.toBits.toNat % 2 ^ 52 < 2 ^ 52 := Nat.mod_lt _ (by decide)
  unfold Binary.ofFloat
  simp only [Decimal.twoTo, Nat.pow_eq]
  generalize x.toBits.toNat / 2 ^ 52 % 2 ^ 11 = field at *
  generalize x.toBits.toNat % 2 ^ 52 = fraction at *
  split
  · exact ⟨by simp only; omega, by simp, by simp, .inr rfl⟩
  · exact ⟨by simp only; omega, by simp only; omega, by simp only; omega, .inl (by simp only; omega)⟩

theorem ofBinary_finite (b : Binary) : (ofBinary b).isFinite = true := by
  unfold ofBinary
  split <;> rfl

theorem signOf_injective {s t : Bool} (same : signOf s = signOf t) : s = t := by
  cases s <;> cases t <;> first | rfl | cases same

theorem ofBinary_injective {b c : Binary} (hb : Canonical b) (hc : Canonical c)
    (same : ofBinary b = ofBinary c) : b = c := by
  obtain ⟨_, _, _, fullB⟩ := hb
  obtain ⟨_, _, _, fullC⟩ := hc
  cases b with | mk s m e =>
  cases c with | mk t n f =>
  unfold ofBinary at same
  dsimp only at *
  split at same <;> split at same
  · rename_i zeroM zeroN
    cases signOf_injective (UnpackedFloat.zero.inj same)
    subst zeroM zeroN
    simp_all
  · cases same
  · cases same
  · obtain ⟨signs, rfl, rfl⟩ := UnpackedFloat.finite.inj same
    cases signOf_injective signs
    rfl

theorem eq_of_ofFloat (x y : Float) (same : Binary.ofFloat x = Binary.ofFloat y) : x = y := by
  have hx : x.toBits.toNat < 2 ^ 64 := x.toBits.toNat_lt
  have hy : y.toBits.toNat < 2 ^ 64 := y.toBits.toNat_lt
  apply Float.toBits_inj.mp
  apply UInt64.toNat_inj.mp
  unfold Binary.ofFloat at same
  simp only [Decimal.twoTo, Nat.pow_eq] at same
  split at same <;> split at same <;>
    simp only [Binary.mk.injEq, decide_eq_decide] at same <;> omega

theorem unpack_components (negative : Bool) (e : BitVec 11) (m : BitVec 52) (below : e ≠ -1#11) :
    UnpackedFloat.unpack double (packComponents double (signOf negative) e m) =
      ofBinary (if e = 0#11 then ⟨negative, m.toNat, -1074⟩
        else ⟨negative, 2 ^ 52 + m.toNat, e.toNat - 1075⟩) := by
  have bias : ((double.exponentBias : Nat) : Int) = 1023 := rfl
  unfold UnpackedFloat.unpack
  simp only [unpackMantissa_packComponents, unpackExponent_packComponents, unpackSign_packComponents,
    Sign.ofBitVec_toBitVec, bias]
  rw [if_neg below]
  by_cases least : e = 0#11
  · subst least
    rw [if_pos rfl, if_pos rfl]
    unfold ofBinary
    by_cases none : m = 0#52
    · subst none
      rfl
    · have some : m.toNat ≠ 0 := fun zero => none (BitVec.eq_of_toNat_eq zero)
      rw [dif_neg none]
      simp only [some, ↓reduceDIte]
      rfl
  · rw [if_neg least, if_neg least]
    unfold ofBinary
    rw [dif_neg (by simp)]
    congr 1
    exact implicit_bit m

theorem log2_full {m : Nat} (nonzero : m ≠ 0) (small : m < 2 ^ 53) : m.log2 + 1 = 53 ↔ 2 ^ 52 ≤ m := by
  have below := (Nat.log2_lt nonzero).mpr small
  have full := Nat.le_log2 nonzero (k := 52)
  omega

theorem pack_zero {b : Binary} (zero : b.significand = 0) : UnpackedFloat.pack double (ofBinary b) =
    packComponents double (signOf b.negative) 0#11 0#52 := by
  simp only [ofBinary, zero, ↓reduceDIte]
  rfl

theorem pack_normal {b : Binary} (canonical : Canonical b) (normal : 2 ^ 52 ≤ b.significand) :
    UnpackedFloat.pack double (ofBinary b) = packComponents double (signOf b.negative)
      (BitVec.ofNat 11 (b.exponent + 1075).toNat) (BitVec.ofNat 52 b.significand) := by
  obtain ⟨small, least, greatest, _⟩ := canonical
  have bias : ((double.exponentBias : Nat) : Int) = 1023 := rfl
  have nonzero : b.significand ≠ 0 := by omega
  have field : b.exponent + 1023 + 52 = b.exponent + 1075 := by omega
  simp only [ofBinary, nonzero, ↓reduceDIte, UnpackedFloat.pack]
  rw [if_neg, if_pos]
  · rw [← field]
    rfl
  · exact (log2_full nonzero small).mpr normal
  · rw [bias]
    simp only [Nat.reducePow]
    omega

theorem pack_subnormal {b : Binary} (canonical : Canonical b) (nonzero : b.significand ≠ 0)
    (subnormal : b.significand < 2 ^ 52) : UnpackedFloat.pack double (ofBinary b) =
      packComponents double (signOf b.negative) 0#11 (BitVec.ofNat 52 b.significand) := by
  obtain ⟨small, least, greatest, _⟩ := canonical
  have bias : ((double.exponentBias : Nat) : Int) = 1023 := rfl
  simp only [ofBinary, nonzero, ↓reduceDIte, UnpackedFloat.pack]
  rw [if_neg, if_neg]
  · intro filled
    have full := (log2_full nonzero small).mp filled
    omega
  · rw [bias]
    simp only [Nat.reducePow]
    omega

theorem unpack_normal {b : Binary} (canonical : Canonical b) (normal : 2 ^ 52 ≤ b.significand) :
    UnpackedFloat.unpack double (UnpackedFloat.pack double (ofBinary b)) = ofBinary b := by
  obtain ⟨small, least, greatest, _⟩ := canonical
  have exponent : (BitVec.ofNat 11 (b.exponent + 1075).toNat).toNat = (b.exponent + 1075).toNat := by
    rw [BitVec.toNat_ofNat, Nat.mod_eq_of_lt (by omega)]
  have mantissa : (BitVec.ofNat 52 b.significand).toNat = b.significand - 2 ^ 52 := by
    rw [BitVec.toNat_ofNat]
    omega
  have below : BitVec.ofNat 11 (b.exponent + 1075).toNat ≠ -1#11 := by
    intro full
    rw [full] at exponent
    have greatest : (-1#11).toNat = 2047 := rfl
    omega
  have positive : BitVec.ofNat 11 (b.exponent + 1075).toNat ≠ 0#11 := by
    intro none
    rw [none] at exponent
    have zero : (0#11).toNat = 0 := rfl
    omega
  have same : (⟨b.negative, 2 ^ 52 + (b.significand - 2 ^ 52),
      ((b.exponent + 1075).toNat : Int) - 1075⟩ : Binary) = b := by
    cases b
    simp only [Binary.mk.injEq, true_and] at *
    omega
  rw [pack_normal ⟨small, least, greatest, .inl normal⟩ normal, unpack_components _ _ _ below,
    if_neg positive, exponent, mantissa, same]

theorem unpack_pack (b : Binary) (canonical : Canonical b) :
    UnpackedFloat.unpack double (UnpackedFloat.pack double (ofBinary b)) = ofBinary b := by
  by_cases zero : b.significand = 0
  · rw [pack_zero zero, unpack_components _ _ _ (by decide)]
    simp only [ofBinary, zero, ↓reduceDIte]
    rfl
  · by_cases normal : 2 ^ 52 ≤ b.significand
    · exact unpack_normal canonical normal
    · have mantissa : (BitVec.ofNat 52 b.significand).toNat = b.significand := by
        rw [BitVec.toNat_ofNat]
        omega
      have same : (⟨b.negative, b.significand, -1074⟩ : Binary) = b := by
        rw [← canonical.full.resolve_left normal]
      rw [pack_subnormal canonical zero (by omega), unpack_components _ _ _ (by decide), if_pos rfl,
        mantissa, same]

theorem isFinite_parts (x : Float) : x.isFinite = (parts x).isFinite := rfl

theorem eq_of_parts {x y : Float} (same : parts x = parts y) : x = y := by
  apply Float.toBits_inj.mp
  apply UInt64.toBitVec_inj.mp
  exact (UnpackedFloat.unpack_inj_of_valid x.toModel.valid y.toModel.valid).mp same

theorem parts_pack (b : Binary) (canonical : Canonical b) :
    parts (.ofModel (.pack (ofBinary b))) = ofBinary b := unpack_pack b canonical

def flipped (b : Binary) : Binary := { b with negative := !b.negative }

theorem flipped_canonical {b : Binary} (canonical : Canonical b) : Canonical (flipped b) :=
  ⟨canonical.small, canonical.least, canonical.greatest, canonical.full⟩

theorem neg_ofBinary (b : Binary) : (ofBinary b).neg = ofBinary (flipped b) := by
  unfold ofBinary flipped
  split <;> cases b.negative <;> rfl

theorem parts_neg {x : Float} (finite : x.isFinite) :
    parts (-x) = ofBinary (flipped (Binary.ofFloat x)) := by
  have known := parts_finite x finite
  change parts (.ofModel (.pack (parts x).neg)) = _
  rw [known, neg_ofBinary]
  exact parts_pack _ (flipped_canonical (ofFloat_canonical x finite))

theorem neg_finite {x : Float} (finite : x.isFinite) : (-x).isFinite := by
  rw [isFinite_parts, parts_neg finite]
  exact ofBinary_finite _

theorem finite_number {x : Float} (finite : x.isFinite) : x ≠ .nan := by
  rintro rfl
  exact absurd finite (by decide)

theorem beq_self {x : Float} (finite : x.isFinite) : (x == x) = true :=
  Float.beq_self_iff.mpr (finite_number finite)

-- Equal numbers are one double, except that zero has two signs.
theorem beq_iff {x y : Float} (finite : x.isFinite) :
    (x == y) = true ↔ x = y ∨ ((x == 0.0) = true ∧ (y == 0.0) = true) := by
  constructor
  · intro same
    obtain ⟨_, _, rfl | ⟨rfl, rfl⟩ | ⟨rfl, rfl⟩⟩ := Float.beq_iff_ne_nan_and_eq.mp same
    · exact .inl rfl
    · exact .inr ⟨by decide, by decide⟩
    · exact .inr ⟨by decide, by decide⟩
  · rintro (rfl | ⟨zeroX, zeroY⟩)
    · exact beq_self finite
    · exact BEq.trans zeroX (BEq.symm zeroY)

-- Zero added to a number changes nothing but the sign of zero.
theorem plus_zero {x : Float} (finite : x.isFinite) : x + 0.0 = if x == 0.0 then 0.0 else x := by
  by_cases zero : (x == 0.0) = true
  · rw [if_pos zero]
    obtain ⟨_, _, rfl | ⟨rfl, _⟩ | ⟨rfl, _⟩⟩ := Float.beq_iff_ne_nan_and_eq.mp zero <;> decide
  · rw [if_neg zero]
    have known := parts_finite x finite
    have canonical := ofFloat_canonical x finite
    have nonzero : (Binary.ofFloat x).significand ≠ 0 := by
      intro none
      have same : parts x = .zero (signOf (Binary.ofFloat x).negative) := by rw [known, ofBinary, dif_pos none]
      apply zero
      cases sign : (Binary.ofFloat x).negative with
      | false =>
        have above : x = 0.0 := eq_of_parts (by rw [same, sign]; rfl)
        rw [above]
        decide
      | true =>
        have below : x = -0.0 := eq_of_parts (by rw [same, sign]; rfl)
        rw [below]
        decide
    have kept : UnpackedFloat.add double (ofBinary (Binary.ofFloat x)) (parts 0.0) = ofBinary (Binary.ofFloat x) := by
      rw [ofBinary, dif_neg nonzero]
      rfl
    apply eq_of_parts
    change parts (.ofModel (.pack (UnpackedFloat.add double (parts x) (parts 0.0)))) = _
    rw [known, kept]
    exact parts_pack _ canonical

theorem zero_or_one {x : Float} (zero : (x == 0.0) = true) : ¬(x == 1.0) = true := by
  intro one
  have same : ((0.0 : Float) == 1.0) = true := BEq.trans (BEq.symm zero) one
  exact absurd same (by decide)

theorem beq_finite {x y : Float} (finite : y.isFinite) (same : (x == y) = true) : x.isFinite := by
  obtain ⟨_, _, rfl | ⟨rfl, rfl⟩ | ⟨rfl, rfl⟩⟩ := Float.beq_iff_ne_nan_and_eq.mp same
  · exact finite
  · decide
  · decide

-- A number with finite neighbours on both sides is finite itself.
theorem between_finite {a b x : Float} (hb : b.isFinite) (above : a < x) (below : x ≤ b) :
    x.isFinite := by
  have above : (parts a).lt (parts x) = true := of_decide_eq_true above
  have below : (parts x).le (parts b) = true := of_decide_eq_true below
  rw [isFinite_parts] at hb ⊢
  unfold UnpackedFloat.lt at above
  unfold UnpackedFloat.le at below
  generalize parts a = u, parts x = v, parts b = w at *
  cases v with
  | notANumber => cases u <;> simp [UnpackedFloat.compare] at above
  | infinity s =>
    cases s with
    | positive => cases w <;> simp_all [UnpackedFloat.compare, UnpackedFloat.isFinite]
    | negative =>
      cases u with
      | notANumber | zero | finite => simp [UnpackedFloat.compare] at above
      | infinity t => cases t <;> exact absurd above (by decide)
  | zero s => rfl
  | finite s m e positive => rfl

end Solid.Doubles
