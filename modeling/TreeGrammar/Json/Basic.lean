/-
# TreeGrammar.Json.Basic -- JSON values

A number is an integer of any size or, if it is written with a point or an exponent,
a floating point number.  The members of an object keep their order.
-/
import TreeGrammar.Keyed
import TreeGrammar.Number.Binary64
import TreeGrammar.Text.Basic

set_option autoImplicit false

namespace TreeGrammar

inductive Json where
  | null
  | boolean (value : Bool)
  | number (value : Int)
  | decimal (value : Binary64)
  | text (value : Text)
  | array (items : List Json)
  | object (members : List (Text × Json))

namespace Json

mutual

def decideEq : (a b : Json) → Decidable (a = b)
  | .null, .null => isTrue rfl
  | .boolean a, .boolean b =>
      if same : a = b then isTrue (same ▸ rfl) else isFalse fun equal => same (by injection equal)
  | .number a, .number b =>
      if same : a = b then isTrue (same ▸ rfl) else isFalse fun equal => same (by injection equal)
  | .decimal a, .decimal b =>
      if same : a = b then isTrue (same ▸ rfl) else isFalse fun equal => same (by injection equal)
  | .text a, .text b =>
      if same : a = b then isTrue (same ▸ rfl) else isFalse fun equal => same (by injection equal)
  | .array a, .array b =>
      match decideItems a b with
      | isTrue same => isTrue (same ▸ rfl)
      | isFalse different => isFalse fun equal => different (by injection equal)
  | .object a, .object b =>
      match decideMembers a b with
      | isTrue same => isTrue (same ▸ rfl)
      | isFalse different => isFalse fun equal => different (by injection equal)
  | .null, .boolean _ | .null, .number _ | .null, .decimal _ | .null, .text _ | .null, .array _
  | .null, .object _ | .boolean _, .null | .boolean _, .number _ | .boolean _, .decimal _
  | .boolean _, .text _ | .boolean _, .array _ | .boolean _, .object _ | .number _, .null
  | .number _, .boolean _ | .number _, .decimal _ | .number _, .text _ | .number _, .array _
  | .number _, .object _ | .decimal _, .null | .decimal _, .boolean _ | .decimal _, .number _
  | .decimal _, .text _ | .decimal _, .array _ | .decimal _, .object _ | .text _, .null
  | .text _, .boolean _ | .text _, .number _ | .text _, .decimal _ | .text _, .array _
  | .text _, .object _ | .array _, .null | .array _, .boolean _ | .array _, .number _
  | .array _, .decimal _ | .array _, .text _ | .array _, .object _ | .object _, .null
  | .object _, .boolean _ | .object _, .number _ | .object _, .decimal _ | .object _, .text _
  | .object _, .array _ => isFalse fun equal => by injection equal

def decideItems : (a b : List Json) → Decidable (a = b)
  | [], [] => isTrue rfl
  | [], _ :: _ | _ :: _, [] => isFalse fun equal => by injection equal
  | a :: as, b :: bs =>
      match decideEq a b, decideItems as bs with
      | isTrue same, isTrue rest => isTrue (same ▸ rest ▸ rfl)
      | isFalse different, _ => isFalse fun equal => different (by injection equal)
      | _, isFalse different => isFalse fun equal => different (by injection equal)

def decideMembers : (a b : List (Text × Json)) → Decidable (a = b)
  | [], [] => isTrue rfl
  | [], _ :: _ | _ :: _, [] => isFalse fun equal => by injection equal
  | (k, a) :: as, (l, b) :: bs =>
      if key : k = l then
        match decideEq a b, decideMembers as bs with
        | isTrue same, isTrue rest => isTrue (key ▸ same ▸ rest ▸ rfl)
        | isFalse different, _ =>
            isFalse fun equal => different (by injection equal with head; injection head)
        | _, isFalse different => isFalse fun equal => different (by injection equal)
      else isFalse fun equal => key (by injection equal with head; injection head)

end

instance : DecidableEq Json := decideEq

/-- The value of a member of an object. -/
def get? (key : Text) : Json → Option Json
  | .object members => Keyed.get? key members
  | _ => none

/-- The integer that a value counts as: an integral number or a truth value. -/
def integer? : Json → Option Int
  | .boolean value => some (if value then 1 else 0)
  | .number value => some value
  | .decimal value => value.integer?
  | _ => none

/-- Whether two values are the same name: equal, or numbers of equal value. -/
def same (a b : Json) : Bool :=
  match a.integer?, b.integer? with
  | some m, some n => m = n
  | _, _ => a = b

/-- The text that a value is. -/
def text? : Json → Option Text
  | .text value => some value
  | _ => none

end Json

end TreeGrammar
