/-
# TreeGrammar.Proofs.Json.Lexing -- printed text, token by token

`Lexes text tokens` says that the text is read as the tokens wherever it stands between two
tokens, whatever follows it.  So texts that are read as tokens may be put one behind the other.
Separators, brackets and quoted texts are read so: each character of a quoted text is read back
from its form (`run_characterForm`), be it plain, escaped by a letter or written by the numbers
of its one or two units.

Numbers and words are not: they end only where something else begins.
-/
import Mathlib.Tactic.SplitIfs
import TreeGrammar.Json.Printer
import TreeGrammar.Json.Token
import TreeGrammar.Proofs.Text.Numeral

set_option autoImplicit false

namespace TreeGrammar.Json

variable {before : List Token} {read rest : Text} {c : Char}

/-! ## One character of a quoted text -/

theorem run_step {state next : Lexer.State} {tokens : List Token}
    (stepped : Lexer.step state c = some (tokens, next)) :
    Lexer.run before state (c :: rest) = Lexer.run (tokens.reverse ++ before) next rest := by
  rw [Lexer.run, stepped]

/-- A character behind which no token is complete. -/
theorem run_silent {state next : Lexer.State} (stepped : Lexer.step state c = some ([], next)) :
    Lexer.run before state (c :: rest) = Lexer.run before next rest :=
  run_step stepped

theorem run_letterEscape {letter : Char} (meant : Lexer.escaped? letter = some c)
    (noUnit : letter ≠ 'u') :
    Lexer.run before (.inside ⟨read, none⟩) ('\\' :: letter :: rest) =
      Lexer.run before (.inside ⟨c :: read, none⟩) rest := by
  have begins : Lexer.step (.inside ⟨read, none⟩) '\\' = some ([], .escape ⟨read, none⟩) := rfl
  have escapes : Lexer.step (.escape ⟨read, none⟩) letter =
      some ([], .inside ⟨c :: read, none⟩) := by
    simp [Lexer.step, noUnit, meant, Units.push, Units.settled]
  rw [run_silent begins, run_silent escapes]

/-- Digits of a unit, with `due` more than one of them to come. -/
theorem run_unit {units : Units} {high unit : Nat} {digits : Text} {due : Nat}
    (length : digits.length = due + 1) (value : Text.hexValueOf high digits = some unit) :
    Lexer.run before (.unit units high (due + 1)) (digits ++ rest) =
      Lexer.run before (.inside (units.pushUnit unit)) rest := by
  induction digits generalizing high due with
  | nil => simp at length
  | cons c digits ih =>
      rw [Text.hexValueOf, Option.bind_eq_some_iff] at value
      obtain ⟨digit, meant, later⟩ := value
      cases due with
      | zero =>
          obtain rfl := List.length_eq_zero_iff.1 (Nat.succ.inj length)
          obtain rfl := Option.some.inj later
          exact run_silent (by simp [Lexer.step, meant])
      | succ due =>
          have goesOn : Lexer.step (.unit units high (due + 1 + 1)) c =
              some ([], .unit units (high * 16 + digit) (due + 1)) := by
            simp [Lexer.step, meant]
          rw [List.cons_append, run_silent goesOn]
          exact ih (Nat.succ.inj length) later

theorem run_unitEscape {units : Units} {unit : Nat} (small : unit < 0x10000) :
    Lexer.run before (.inside units) (unitEscape unit ++ rest) =
      Lexer.run before (.inside (units.pushUnit unit)) rest := by
  have begins : Lexer.step (.inside units) '\\' = some ([], .escape units) := rfl
  have goesOn : Lexer.step (.escape units) 'u' = some ([], .unit units 0 4) := rfl
  rw [unitEscape, List.cons_append, List.cons_append, run_silent begins, run_silent goesOn]
  exact run_unit (Text.length_hexadecimal small (by omega)) (Text.hexValueOf_hexadecimal 4 unit)

/-- A character is no surrogate, and not beyond the last one. -/
theorem toNat_cases (c : Char) : c.toNat < 0xD800 ∨ 0xE000 ≤ c.toNat ∧ c.toNat < 0x110000 := by
  rcases c.valid with small | ⟨large, last⟩
  · exact .inl small
  · exact .inr ⟨large, last⟩

theorem Units.pushUnit_toNat (small : c.toNat < 0x10000) :
    (Units.mk read none).pushUnit c.toNat = ⟨c :: read, none⟩ := by
  have bounds := toNat_cases c
  rw [pushUnit, if_neg (by omega), if_neg (by omega), Char.ofNat_toNat]
  rfl

/-- A character beyond the first 65536 is pushed by its leading surrogate and its trailing one. -/
theorem Units.pushUnit_pair {offset : Nat} (same : c.toNat = offset + 0x10000) :
    ((Units.mk read none).pushUnit (0xD800 + offset / 0x400)).pushUnit
      (0xDC00 + offset % 0x400) = ⟨c :: read, none⟩ := by
  have bounds := toNat_cases c
  have leading : (Units.mk read none).pushUnit (0xD800 + offset / 0x400) =
      ⟨read, some (0xD800 + offset / 0x400)⟩ := by
    rw [pushUnit, if_pos (by omega)]
    rfl
  have whole : 0x10000 + (0xD800 + offset / 0x400 - 0xD800) * 0x400 +
      (0xDC00 + offset % 0x400 - 0xDC00) = c.toNat := by
    omega
  rw [leading, pushUnit, if_neg (by omega), if_pos (by omega)]
  simp only [whole, Char.ofNat_toNat]

theorem run_numberEscape (c : Char) :
    Lexer.run before (.inside ⟨read, none⟩) (numberEscape c ++ rest) =
      Lexer.run before (.inside ⟨c :: read, none⟩) rest := by
  have bounds := toNat_cases c
  rw [numberEscape]
  split
  · next small => rw [run_unitEscape small, Units.pushUnit_toNat small]
  · next great =>
    rw [List.append_assoc, run_unitEscape (by omega), run_unitEscape (by omega),
      Units.pushUnit_pair (c := c) (by omega)]

/-- **A character between quotes** is read back from its form. -/
theorem run_characterForm (ascii : Bool) (c : Char) :
    Lexer.run before (.inside ⟨read, none⟩) (characterForm ascii c ++ rest) =
      Lexer.run before (.inside ⟨c :: read, none⟩) rest := by
  unfold characterForm
  split_ifs with quote backslash lineFeed carriageReturn tab formFeed backspace control wide
  case neg =>
    exact run_silent (by simp [Lexer.step, quote, backslash, control, Units.push, Units.settled])
  all_goals first
    | exact run_numberEscape c
    | subst_vars; exact run_letterEscape rfl (by decide)

/-! ## Texts that are read as tokens -/

/-- The characters that may stand between tokens. -/
def isBlank (c : Char) : Bool :=
  c = ' ' || c = '\t' || c = '\n' || c = '\r'

/-- The text is read as the tokens between whatever other tokens it stands. -/
def Lexes (text : Text) (tokens : List Token) : Prop :=
  ∀ before rest, Lexer.run before .between (text ++ rest) =
    Lexer.run (tokens.reverse ++ before) .between rest

namespace Lexes

theorem nil : Lexes [] [] := fun _ _ => rfl

theorem append {first second : Text} {tokens more : List Token} (lexes : Lexes first tokens)
    (later : Lexes second more) : Lexes (first ++ second) (tokens ++ more) := by
  intro before rest
  rw [List.append_assoc, lexes, later, List.reverse_append, List.append_assoc]

/-- A character that is a token by itself, or none. -/
theorem single {tokens : List Token} (starts : Lexer.start c = some (tokens, .between)) :
    Lexes [c] tokens :=
  fun _ _ => run_step starts

theorem blanks {text : Text} (blank : text.all isBlank) : Lexes text [] := by
  induction text with
  | nil => exact nil
  | cons c text ih =>
      rw [List.all_cons, Bool.and_eq_true] at blank
      obtain ⟨here, later⟩ := blank
      have isStart : c = ' ' ∨ c = '\t' ∨ c = '\n' ∨ c = '\r' := by
        simpa [isBlank, or_assoc] using here
      have passed : Lexes [c] [] := single (by simp [Lexer.start, isStart])
      exact passed.append (ih later)

/-- A text between quotes is one token. -/
theorem quoted (ascii : Bool) (text : Text) : Lexes (quotedForm ascii text) [.text text] := by
  have inside : ∀ (before : List Token) (read rest : Text),
      Lexer.run before (.inside ⟨read, none⟩) (text.flatMap (characterForm ascii) ++ rest) =
        Lexer.run before (.inside ⟨text.reverse ++ read, none⟩) rest := by
    induction text with
    | nil => exact fun _ _ _ => rfl
    | cons c text ih =>
        intro before read rest
        rw [List.flatMap_cons, List.append_assoc, run_characterForm, ih, List.reverse_cons,
          List.append_assoc]
        rfl
  intro before rest
  have opens : Lexer.step .between '"' = some ([], .inside ⟨[], none⟩) := rfl
  have closes : Lexer.step (.inside ⟨text.reverse, none⟩) '"' =
      some ([.text text], .between) := by
    simp [Lexer.step, Units.settled]
  rw [quotedForm, List.cons_append, List.cons_append, List.append_assoc, run_silent opens, inside,
    List.append_nil, List.singleton_append, run_step closes]

example : quotedForm true ['"', '\x00', 'é', '😀'] =
    "\"\\\"\\u0000\\u00e9\\ud83d\\ude00\"".toList := by
  decide

end Lexes

end TreeGrammar.Json
