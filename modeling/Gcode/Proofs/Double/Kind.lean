import Gcode.Proofs.Double.Packing

/-!
# Kinds of doubles

A double is no number, infinite, zero or none of these, and it has a sign.  `Kind.sums`,
`Kind.products` and the like say which kinds the result of an operation can have, given the kinds of
what goes into it: only where two finite numbers meet does rounding leave a choice.  So whether a
formula can end in something that is no number is decided by following its kinds.
-/

namespace Gcode

open Double Float.Model Float.Model.UnpackedFloat

inductive Kind where
  | nan
  | infinite (negative : Bool)
  | zero (negative : Bool)
  | nonzero (negative : Bool)
  deriving DecidableEq, Fintype, Repr

namespace Kind

/-! ## Operations on kinds -/

def isFinite : Kind → Bool
  | zero _ | nonzero _ => true
  | nan | infinite _ => false

def rounded (negative : Bool) : List Kind := [zero negative, nonzero negative, infinite negative]

def opposite : Kind → Kind
  | nan => nan
  | infinite negative => infinite !negative
  | zero negative => zero !negative
  | nonzero negative => nonzero !negative

def magnitude : Kind → Kind
  | nan => nan
  | infinite _ => infinite false
  | zero _ => zero false
  | nonzero _ => nonzero false

def sums : Kind → Kind → List Kind
  | nan, _ | _, nan => [nan]
  | infinite left, infinite right => [if left = right then infinite left else nan]
  | infinite sign, _ | _, infinite sign => [infinite sign]
  | zero left, zero right => [zero (left && right)]
  | zero _, nonzero sign | nonzero sign, zero _ => rounded sign
  | nonzero left, nonzero right =>
    if left = right then rounded left else rounded true ++ rounded false

def products : Kind → Kind → List Kind
  | nan, _ | _, nan => [nan]
  | infinite _, zero _ | zero _, infinite _ => [nan]
  | infinite left, infinite right | infinite left, nonzero right | nonzero left, infinite right =>
    [infinite (left != right)]
  | zero left, zero right | zero left, nonzero right | nonzero left, zero right =>
    [zero (left != right)]
  | nonzero left, nonzero right => rounded (left != right)

def quotients : Kind → Kind → List Kind
  | nan, _ | _, nan => [nan]
  | infinite _, infinite _ | zero _, zero _ => [nan]
  | infinite left, zero right | infinite left, nonzero right | nonzero left, zero right =>
    [infinite (left != right)]
  | zero left, infinite right | nonzero left, infinite right | zero left, nonzero right =>
    [zero (left != right)]
  | nonzero left, nonzero right => rounded (left != right)

def roots : Kind → List Kind
  | nan | infinite true | nonzero true => [nan]
  | infinite false => [infinite false]
  | zero negative => [zero negative]
  | nonzero false => rounded false

/-! ## Kinds of unpacked doubles -/

def isNegative : Sign → Bool
  | .positive => false
  | .negative => true

def ofUnpacked : UnpackedFloat → Kind
  | .notANumber => nan
  | .infinity sign => infinite (isNegative sign)
  | .zero sign => zero (isNegative sign)
  | .finite sign _ _ _ => nonzero (isNegative sign)

@[simp] theorem isNegative_mul (left right : Sign) :
    isNegative (left * right) = (isNegative left != isNegative right) := by
  cases left <;> cases right <;> rfl

@[simp] theorem isNegative_div (left right : Sign) :
    isNegative (left / right) = (isNegative left != isNegative right) := by
  cases left <;> cases right <;> rfl

@[simp] theorem isNegative_neg (sign : Sign) : isNegative (-sign) = !isNegative sign := by
  cases sign <;> rfl

theorem ofUnpacked_round (spec : Format) (sign : Sign) (mantissa : Nat) (exponent : Int)
    (accuracy : Accuracy) :
    ofUnpacked (roundWithAccuracy spec sign mantissa exponent accuracy) ∈
      rounded (isNegative sign) := by
  unfold roundWithAccuracy
  simp only
  split_ifs <;> simp [ofUnpacked, rounded]

theorem ofUnpacked_normalize_of_neg (spec : Format) {mantissa : Int} (h : mantissa < 0)
    (exponent : Int) :
    ofUnpacked (UnpackedFloat.normalize spec mantissa exponent .positive) ∈ rounded true := by
  rw [normalize_of_neg spec h]
  exact ofUnpacked_round _ .negative _ _ _

theorem ofUnpacked_normalize_of_nonneg (spec : Format) {mantissa : Int} (h : 0 ≤ mantissa)
    (exponent : Int) :
    ofUnpacked (UnpackedFloat.normalize spec mantissa exponent .positive) ∈ rounded false := by
  rcases Int.le_iff_lt_or_eq.1 h with hpositive | rfl
  · rw [normalize_of_pos spec hpositive]
    exact ofUnpacked_round _ .positive _ _ _
  · exact List.mem_cons_self

theorem ofUnpacked_normalize (spec : Format) (mantissa exponent : Int) :
    ofUnpacked (UnpackedFloat.normalize spec mantissa exponent .positive) ∈
      rounded true ++ rounded false := by
  rcases Int.lt_or_le mantissa 0 with hnegative | hnonneg
  · exact List.mem_append_left _ (ofUnpacked_normalize_of_neg spec hnegative exponent)
  · exact List.mem_append_right _ (ofUnpacked_normalize_of_nonneg spec hnonneg exponent)

theorem decreaseExponent_pos {mantissa : Nat} (positive : 0 < mantissa) (exponent target : Int) :
    0 < (decreaseExponent mantissa exponent target).1 := by
  simp only [decreaseExponent, Nat.shiftLeft_eq]
  exact Nat.mul_pos positive (Nat.two_pow_pos _)

/-! ## Packing -/

theorem ofUnpacked_ofFields {sign : Sign} {exponent : BitVec 11} {mantissa : BitVec 52}
    (h : exponent ≠ -1#11) :
    ofUnpacked (ofFields sign exponent mantissa) ∈ rounded (isNegative sign) := by
  rw [ofFields, if_neg h]
  split_ifs <;> simp [ofUnpacked, rounded]

def packed : Kind → List Kind
  | nonzero negative => rounded negative
  | kind => [kind]

theorem ofUnpacked_pack (result : UnpackedFloat) :
    ofUnpacked (Float.Model.pack result).unpack ∈ packed (ofUnpacked result) := by
  cases result with
  | notANumber | infinity | zero =>
      rw [unpack_pack (by trivial)]
      exact List.mem_singleton.2 rfl
  | finite sign mantissa exponent positive =>
      by_cases hhigh : exponent < 972
      · rw [unpack_pack_of_lt sign positive hhigh]
        split_ifs
        · exact ofUnpacked_ofFields (exponentField_ne_highest hhigh)
        · exact ofUnpacked_ofFields (by decide)
      · rw [unpack_pack_of_overflow sign positive (by omega)]
        simp [ofUnpacked, packed, rounded]

/-! ## Kinds of results -/

theorem ofUnpacked_neg (x : UnpackedFloat) :
    ofUnpacked (UnpackedFloat.neg x) = opposite (ofUnpacked x) := by
  cases x <;> simp [UnpackedFloat.neg, ofUnpacked, opposite]

theorem ofUnpacked_abs (x : UnpackedFloat) :
    ofUnpacked (UnpackedFloat.abs x) = magnitude (ofUnpacked x) := by
  cases x <;> rfl

theorem ofUnpacked_add (spec : Format) (x y : UnpackedFloat) :
    ofUnpacked (UnpackedFloat.add spec x y) ∈ sums (ofUnpacked x) (ofUnpacked y) := by
  cases x with
  | notANumber => cases y <;> exact List.mem_singleton.2 rfl
  | infinity left =>
      cases y with
      | infinity right => cases left <;> cases right <;> exact List.mem_singleton.2 rfl
      | notANumber | zero | finite => exact List.mem_singleton.2 rfl
  | zero left =>
      cases y with
      | zero right => cases left <;> cases right <;> exact List.mem_singleton.2 rfl
      | finite => simp [UnpackedFloat.add, ofUnpacked, sums, rounded]
      | notANumber | infinity => exact List.mem_singleton.2 rfl
  | finite left first firstExponent firstPositive =>
      cases y with
      | zero => simp [UnpackedFloat.add, ofUnpacked, sums, rounded]
      | finite right second secondExponent secondPositive =>
          have hfirst := decreaseExponent_pos firstPositive firstExponent
            (min firstExponent secondExponent)
          have hsecond := decreaseExponent_pos secondPositive secondExponent
            (min firstExponent secondExponent)
          simp only [UnpackedFloat.add, ofUnpacked, sums]
          cases left <;> cases right
          · exact ofUnpacked_normalize_of_neg _ (by simp only [Sign.apply]; omega) _
          · exact ofUnpacked_normalize ..
          · exact ofUnpacked_normalize ..
          · exact ofUnpacked_normalize_of_nonneg _ (by simp only [Sign.apply]; omega) _
      | notANumber | infinity => exact List.mem_singleton.2 rfl

theorem ofUnpacked_mul (spec : Format) (x y : UnpackedFloat) :
    ofUnpacked (UnpackedFloat.mul spec x y) ∈ products (ofUnpacked x) (ofUnpacked y) := by
  cases x with
  | finite left _ _ _ =>
      cases y with
      | finite right _ _ _ =>
          rw [ofUnpacked, ofUnpacked, products, ← isNegative_mul]
          exact ofUnpacked_round ..
      | notANumber | infinity | zero => simp [UnpackedFloat.mul, ofUnpacked, products]
  | notANumber | infinity | zero => cases y <;> simp [UnpackedFloat.mul, ofUnpacked, products]

theorem ofUnpacked_div (spec : Format) (x y : UnpackedFloat) :
    ofUnpacked (UnpackedFloat.div spec x y) ∈ quotients (ofUnpacked x) (ofUnpacked y) := by
  cases x with
  | finite left _ _ _ =>
      cases y with
      | finite right _ _ _ =>
          rw [ofUnpacked, ofUnpacked, quotients, ← isNegative_div]
          exact ofUnpacked_round ..
      | notANumber | infinity | zero => simp [UnpackedFloat.div, ofUnpacked, quotients]
  | notANumber | infinity | zero => cases y <;> simp [UnpackedFloat.div, ofUnpacked, quotients]

theorem ofUnpacked_sqrt (spec : Format) (x : UnpackedFloat) :
    ofUnpacked (UnpackedFloat.sqrt spec x) ∈ roots (ofUnpacked x) := by
  cases x with
  | notANumber | zero => exact List.mem_singleton.2 rfl
  | infinity sign => cases sign <;> exact List.mem_singleton.2 rfl
  | finite sign =>
      cases sign with
      | negative => exact List.mem_singleton.2 rfl
      | positive => exact ofUnpacked_round ..

/-! ## Kinds of doubles -/

def ofFloat (x : Float) : Kind := ofUnpacked x.toModel.unpack

theorem isNaN_iff (x : Float) : x.isNaN = true ↔ ofFloat x = nan := by
  change x.toModel.unpack.isNaN = true ↔ ofUnpacked x.toModel.unpack = nan
  cases x.toModel.unpack <;> simp [UnpackedFloat.isNaN, ofUnpacked]

theorem isFinite_eq (x : Float) : x.isFinite = (ofFloat x).isFinite := by
  change x.toModel.unpack.isFinite = (ofUnpacked x.toModel.unpack).isFinite
  cases x.toModel.unpack <;> rfl

theorem mem_of_packed {operation : List Kind} {kind result : Kind} (h : kind ∈ operation)
    (closed : ∀ negative, nonzero negative ∈ operation → rounded negative ⊆ operation)
    (hresult : result ∈ packed kind) : result ∈ operation := by
  cases kind with
  | nonzero negative => exact closed negative h hresult
  | nan | infinite | zero => rwa [List.mem_singleton.1 hresult]

theorem ofFloat_neg (x : Float) : ofFloat (-x) = opposite (ofFloat x) := by
  rw [ofFloat, Double.unpack_neg, ofUnpacked_neg]
  rfl

theorem ofFloat_abs (x : Float) : ofFloat x.abs = magnitude (ofFloat x) := by
  rw [ofFloat, Double.unpack_abs, ofUnpacked_abs]
  rfl

theorem ofFloat_add (x y : Float) : ofFloat (x + y) ∈ sums (ofFloat x) (ofFloat y) := by
  refine mem_of_packed (ofUnpacked_add .binary64 _ _) ?_ (ofUnpacked_pack _)
  exact (by decide : ∀ left right negative, nonzero negative ∈ sums left right →
    rounded negative ⊆ sums left right) _ _

theorem ofFloat_sub (x y : Float) :
    ofFloat (x - y) ∈ sums (ofFloat x) (opposite (ofFloat y)) := by
  rw [Double.sub_eq_add_neg, ← ofFloat_neg]
  exact ofFloat_add x (-y)

theorem ofFloat_mul (x y : Float) : ofFloat (x * y) ∈ products (ofFloat x) (ofFloat y) := by
  refine mem_of_packed (ofUnpacked_mul .binary64 _ _) ?_ (ofUnpacked_pack _)
  exact (by decide : ∀ left right negative, nonzero negative ∈ products left right →
    rounded negative ⊆ products left right) _ _

theorem ofFloat_div (x y : Float) : ofFloat (x / y) ∈ quotients (ofFloat x) (ofFloat y) := by
  refine mem_of_packed (ofUnpacked_div .binary64 _ _) ?_ (ofUnpacked_pack _)
  exact (by decide : ∀ left right negative, nonzero negative ∈ quotients left right →
    rounded negative ⊆ quotients left right) _ _

theorem ofFloat_sqrt (x : Float) : ofFloat x.sqrt ∈ roots (ofFloat x) := by
  refine mem_of_packed (ofUnpacked_sqrt .binary64 _) ?_ (ofUnpacked_pack _)
  exact (by decide : ∀ kind negative, nonzero negative ∈ roots kind →
    rounded negative ⊆ roots kind) _

/-! ## Finite operands -/

theorem isFinite_opposite : ∀ kind : Kind, (opposite kind).isFinite = kind.isFinite := by
  decide

theorem isFinite_neg (x : Float) : (-x).isFinite = x.isFinite := by
  rw [isFinite_eq, isFinite_eq, ofFloat_neg, isFinite_opposite]

theorem isFinite_of_mem_sums : ∀ {left right result : Kind}, result ∈ sums left right →
    result.isFinite = true → left.isFinite = true ∧ right.isFinite = true := by
  decide

theorem isFinite_of_mem_products : ∀ {left right result : Kind}, result ∈ products left right →
    result.isFinite = true → left.isFinite = true ∧ right.isFinite = true := by
  decide

theorem isFinite_of_add {x y : Float} (h : (x + y).isFinite = true) :
    x.isFinite = true ∧ y.isFinite = true := by
  simp only [isFinite_eq] at h ⊢
  exact isFinite_of_mem_sums (ofFloat_add x y) h

theorem isFinite_of_mul {x y : Float} (h : (x * y).isFinite = true) :
    x.isFinite = true ∧ y.isFinite = true := by
  simp only [isFinite_eq] at h ⊢
  exact isFinite_of_mem_products (ofFloat_mul x y) h

end Kind

end Gcode
