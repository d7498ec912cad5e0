import Rheonic.Lib.Double

/-- A number of JavaScript; the finite ones are rational. -/
inductive JsNumber
  | nan
  | finite (x : ℚ)
  | infinite (negative : Bool)
  deriving DecidableEq, Repr

namespace JsNumber

def ofDouble : Double → JsNumber
  | .finite n => .finite n
  | .infinite negative => .infinite negative

/-- `<`, which nothing stands in with `NaN`. -/
def below : JsNumber → JsNumber → Bool
  | .finite x, .finite y => x < y
  | .finite _, .infinite negative => !negative
  | .infinite negative, .finite _ => negative
  | .infinite negative, .infinite negative' => negative && !negative'
  | _, _ => false

instance : LT JsNumber := ⟨fun a b => below a b = true⟩

instance : DecidableLT JsNumber := fun a b => inferInstanceAs (Decidable (below a b = true))

/-- `<=`. -/
instance : LE JsNumber := ⟨fun a b => below a b = true ∨ (a = b ∧ a ≠ .nan)⟩

instance : DecidableLE JsNumber := fun a b =>
  inferInstanceAs (Decidable (below a b = true ∨ (a = b ∧ a ≠ .nan)))

/-- `Math.min`, which gives `NaN` if either number is. -/
instance : Min JsNumber where
  min
    | .nan, _ => .nan
    | _, .nan => .nan
    | a, b => if b < a then b else a

theorem not_lt_self (a : JsNumber) : ¬ a < a := by
  intro h
  have hbelow : below a a = true := h
  cases a with
  | nan => exact Bool.false_ne_true hbelow
  | finite x => exact (lt_self_iff_false x).mp (of_decide_eq_true hbelow)
  | infinite negative => cases negative <;> exact Bool.false_ne_true hbelow

end JsNumber
