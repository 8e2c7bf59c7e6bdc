/-
# TreeGrammar.Proofs.NodeModule.Annotations -- the names in annotations

An annotation is a name within the wrappers of sequences and optional values; `bare`
takes the wrappers off.  Resolving a name and annotating it go by rules of their own, but
they agree: what resolves is a scalar or a used name, or it means a family or a variant and
is annotated by the name that is declared for it (`means_of_resolves`).
-/
import TreeGrammar.Proofs.Grammar.Soundness

set_option autoImplicit false

namespace TreeGrammar

/-! ## Bare names -/

theorem sequenceHint_eq (element : Text) :
    sequenceHint element = "tuple[".toList ++ element ++ ", ...]".toList :=
  rfl

theorem optionalHint_eq (inner : Text) : optionalHint inner = inner ++ " | None".toList :=
  rfl

/-- What the outermost wrapper of an annotation stands around, if it has a wrapper. -/
def unwrapped? (hint : Text) : Option Text :=
  match List.isSuffixOf? " | None" hint with
  | some inner => some inner
  | none => (List.isPrefixOf? "tuple[" hint).bind (List.isSuffixOf? ", ...]")

theorem unwrapped?_eq_some {hint inner : Text} (found : unwrapped? hint = some inner) :
    hint = optionalHint inner ∨ hint = sequenceHint inner := by
  unfold unwrapped? at found
  split at found
  · next front ends =>
    obtain rfl := Option.some.inj found
    exact .inl (List.isSuffixOf?_eq_some_iff_append_eq.1 ends).symm
  · obtain ⟨rest, begins, ends⟩ := Option.bind_eq_some_iff.1 found
    have whole := List.isPrefixOf?_eq_some_iff_append_eq.1 begins
    have tail := List.isSuffixOf?_eq_some_iff_append_eq.1 ends
    exact .inr (by rw [← whole, ← tail, sequenceHint_eq, List.append_assoc])

theorem unwrapped?_optionalHint (inner : Text) : unwrapped? (optionalHint inner) = some inner := by
  have ends : List.isSuffixOf? " | None" (optionalHint inner) = some inner :=
    List.isSuffixOf?_eq_some_iff_append_eq.2 rfl
  rw [unwrapped?, ends]

theorem unwrapped?_sequenceHint (element : Text) :
    unwrapped? (sequenceHint element) = some element := by
  have begins : List.isPrefixOf? "tuple[" (sequenceHint element) = some (element ++ ", ...]") :=
    List.isPrefixOf?_eq_some_iff_append_eq.2 (List.append_assoc ..).symm
  have ends : List.isSuffixOf? ", ...]" (element ++ ", ...]".toList) = some element :=
    List.isSuffixOf?_eq_some_iff_append_eq.2 rfl
  have other : List.isSuffixOf? " | None" (sequenceHint element) = none := by
    cases found : List.isSuffixOf? " | None" (sequenceHint element) with
    | none => rfl
    | some front =>
        -- the last characters differ
        have whole := List.isSuffixOf?_eq_some_iff_append_eq.1 found
        have lasts := congrArg List.getLast? whole
        rw [sequenceHint_eq, List.getLast?_append, List.getLast?_append] at lasts
        cases (show some 'e' = some ']' from lasts)
  rw [unwrapped?, other, begins, Option.bind_some, ends]

theorem length_lt_of_unwrapped? {hint inner : Text} (found : unwrapped? hint = some inner) :
    inner.length < hint.length := by
  cases unwrapped?_eq_some found with
  | inl same => simp [same, optionalHint_eq]
  | inr same =>
      simp only [same, sequenceHint_eq, List.length_append]
      have : 0 < "tuple[".toList.length := by decide
      omega

/-- The name within the wrappers of an annotation. -/
def bare (hint : Text) : Text :=
  match _ : unwrapped? hint with
  | some inner => bare inner
  | none => hint
termination_by hint.length
decreasing_by exact length_lt_of_unwrapped? ‹_›

theorem bare_of_unwrapped {hint inner : Text} (found : unwrapped? hint = some inner) :
    bare hint = bare inner := by
  rw [bare]
  split
  · next other same => rw [Option.some.inj (same.symm.trans found)]
  · next none => exact absurd (none.symm.trans found) (by simp)

/-- A name has no wrapper: each of them has a blank in it. -/
theorem unwrapped?_of_solid {name : Text} (solid : ∀ c ∈ name, Text.isBlank c = false) :
    unwrapped? name = none := by
  cases found : unwrapped? name with
  | none => rfl
  | some inner =>
      have blank : ' ' ∈ name := by
        cases unwrapped?_eq_some found with
        | inl same => simp [same, optionalHint_eq]
        | inr same => simp [same, sequenceHint_eq]
      exact absurd (solid ' ' blank) (by decide)

theorem bare_of_solid {name : Text} (solid : ∀ c ∈ name, Text.isBlank c = false) :
    bare name = name := by
  rw [bare]
  split
  · next inner found => exact absurd ((unwrapped?_of_solid solid).symm.trans found) (by simp)
  · rfl

section Hints

variable {families : List Text} {name hint : Text}

theorem builtin_of_scalarHint? (scalar : TypeRef.scalarHint? name = some hint) :
    hint ∈ TypeRef.builtinScalars := by
  unfold TypeRef.scalarHint? at scalar
  split at scalar
  · next other found =>
    obtain rfl := Option.some.inj scalar
    have each : ∀ entry ∈ TypeRef.grammarScalars, entry.2 ∈ TypeRef.builtinScalars := by decide
    exact each _ (Keyed.mem_of_get? found)
  · split at scalar
    · next builtin => exact Option.some.inj scalar ▸ builtin
    · exact absurd scalar (by simp)

theorem solid_nameHint (solid : ∀ c ∈ name, Text.isBlank c = false) :
    ∀ c ∈ nameHint families name, Text.isBlank c = false := by
  intro c member
  unfold nameHint at member
  split at member
  · next hint scalar =>
    have each : TypeRef.builtinScalars.all (·.all (!Text.isBlank ·)) = true := by decide
    have unblank := List.all_eq_true.1 each hint (builtin_of_scalarHint? scalar)
    simpa using List.all_eq_true.1 unblank c member
  split at member
  · exact solid c member
  split at member
  · rw [TypeRef.localName, Text.afterLast, List.mem_reverse] at member
    exact solid c (List.mem_reverse.1 ((List.takeWhile_sublist _).subset member))
  · exact solid c member

/-- **Without its wrappers an annotation is that of the name inside the type.** -/
theorem bare_hint_of_solid {type : TypeRef} (solid : ∀ c ∈ type.name, Text.isBlank c = false) :
    bare (type.hint families) = nameHint families type.name := by
  induction type with
  | named name => exact bare_of_solid (solid_nameHint solid)
  | sequence element ih => exact (bare_of_unwrapped (unwrapped?_sequenceHint _)).trans (ih solid)
  | optional inner ih => exact (bare_of_unwrapped (unwrapped?_optionalHint _)).trans (ih solid)

theorem bare_hint {type : TypeRef} (named : TypeRef.IsTypeName type.name) :
    bare (type.hint families) = nameHint families type.name :=
  bare_hint_of_solid named.quiet.solid

/-- A name without a point is annotated by itself, unless it is that of a scalar. -/
theorem nameHint_unpointed (unpointed : '.' ∉ name) :
    nameHint families name = (TypeRef.scalarHint? name).getD name := by
  have unqualified : TypeRef.properQualifier? name = none := by
    rw [TypeRef.properQualifier?, TypeRef.qualifier?, Text.cut_of_not_mem unpointed]
    rfl
  rw [nameHint]
  cases TypeRef.scalarHint? name with
  | some hint => rfl
  | none => rw [unqualified]; rfl

end Hints

namespace Grammar

/-! ## What a reference means -/

/-- A reference to a family or, behind the family's name and a point, to one of its variants, with
the name that is declared for it. -/
inductive Means (target : Family) : Text → Text → Prop
  | family : Means target target.name target.name
  | variant {name : Text} (isVariant : name ∈ target.variantNames) :
      Means target (target.name ++ '.' :: name) name

variable {grammar : Grammar} {family target : Family} {reference name : Text}

theorem Means.declared (means : Means target reference name) :
    name ∈ target.name :: target.variantNames := by
  cases means with
  | family => exact List.mem_cons_self
  | variant isVariant => exact List.mem_cons_of_mem _ isVariant

/-- What resolves besides the scalars and the used names means a family or a variant, and is
annotated by the name that is declared for it. -/
theorem means_of_resolves (named : TypeRef.IsTypeName reference)
    (unscalar : TypeRef.scalarHint? reference = none) (unused : reference ∉ grammar.usedNames)
    (resolved : grammar.resolves reference = true) :
    ∃ target, grammar.target? reference = some target ∧
      Means target reference (TypeRef.localName reference) ∧
      nameHint grammar.familyNames reference = TypeRef.localName reference := by
  simp only [resolves, TypeRef.isScalar, unscalar, Option.isSome_none, Bool.false_or,
    decide_eq_true_eq, unused, if_false] at resolved
  rcases named with isWord | ⟨first, second, isFirst, isSecond, rfl⟩
  · have whole := TypeRef.localName_word isWord
    rw [TypeRef.qualifier?_word isWord] at resolved
    obtain ⟨target, found⟩ := Option.isSome_iff_exists.1 resolved
    obtain ⟨-, rfl⟩ := family?_eq_some found
    rw [whole]
    refine ⟨target, ?_, .family, ?_⟩
    · rw [target?, TypeRef.properQualifier?_word isWord, Option.getD_none, found]
    · rw [nameHint, unscalar, TypeRef.properQualifier?_word isWord]
  · have behind : TypeRef.localName (first ++ '.' :: second) = second :=
      TypeRef.localName_pointed isSecond
    rw [TypeRef.qualifier?_pointed isFirst] at resolved
    cases found : grammar.family? first with
    | none => simp [found] at resolved
    | some target =>
        simp only [found, behind] at resolved
        obtain ⟨isFamily, rfl⟩ := family?_eq_some found
        have isName : target.name ∈ grammar.familyNames := List.mem_map_of_mem isFamily
        rw [behind]
        refine ⟨target, ?_, .variant (variant?_isSome_iff.1 resolved), ?_⟩
        · rw [target?, TypeRef.properQualifier?_pointed isFirst, Option.getD_some, found]
        · rw [nameHint, unscalar, TypeRef.properQualifier?_pointed isFirst]
          simp [isName, behind]

theorem family_eq_of_name (distinct : grammar.familyNames.Nodup)
    (member : family ∈ grammar.families) (isFamily : target ∈ grammar.families)
    (same : target.name = family.name) : target = family :=
  List.inj_on_of_nodup_map distinct isFamily member same

theorem used_unpointed (wellFormed : grammar.WellFormed) (used : name ∈ grammar.usedNames) :
    '.' ∉ name := by
  obtain ⟨use, isUse, listed⟩ := List.mem_flatMap.1 used
  exact Text.unpointed_of_isIdentifier ((wellFormed.uses use isUse).names name listed).1

end Grammar

end TreeGrammar
