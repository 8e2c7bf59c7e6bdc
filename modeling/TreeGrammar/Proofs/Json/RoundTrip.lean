/-
# TreeGrammar.Proofs.Json.RoundTrip -- printed values are parsed back

A value made of texts, arrays and objects with distinct keys is parsed back from its printed
text, with the members of each object in the order in which the layout puts them
(`parse_print`).  The layout is any that JSON allows: separators and indents have nothing but
blanks beside their comma or colon.

`Writes text value` joins the two passes of the parser: the text is read as tokens, and with
these tokens the machine goes from where a value is due to the place behind the value.  So an
array is written where its items are, and an object where its members are.
-/
import Mathlib.Data.List.Nodup
import Mathlib.Data.List.Sort
import TreeGrammar.Json.Parser
import TreeGrammar.Proofs.Json.Lexing

set_option autoImplicit false

namespace TreeGrammar.Json

open TreeGrammar.Json.Parser (Frame Machine)

/-! ## Layouts -/

/-- The mark with blanks around it. -/
def Around (mark : Char) (text : Text) : Prop :=
  ∃ before after : Text, before.all isBlank ∧ after.all isBlank ∧ text = before ++ mark :: after

/-- A layout that only adds blanks to what JSON needs. -/
structure Layout.Readable (layout : Layout) : Prop where
  indent : ∀ text, layout.indent = some text → text.all isBlank
  items : Around ',' layout.itemSeparator
  keys : Around ':' layout.keySeparator

section Lexes

variable {layout : Layout} {mark : Char} {text : Text} {token : Token}

theorem lexes_around (around : Around mark text)
    (starts : Lexer.start mark = some ([token], .between)) : Lexes text [token] := by
  obtain ⟨before, after, early, late, rfl⟩ := around
  exact (Lexes.blanks early).append ((Lexes.single starts).append (Lexes.blanks late))

theorem Layout.Readable.newLine (readable : layout.Readable) (depth : Nat) :
    Lexes (layout.newLine depth) [] := by
  refine Lexes.blanks (List.all_eq_true.2 fun c member => ?_)
  unfold Layout.newLine at member
  cases indented : layout.indent with
  | none => simp [indented] at member
  | some copied =>
      rw [indented] at member
      rcases List.mem_cons.1 member with rfl | later
      · rfl
      · simp only [Text.repeated, List.mem_flatten, List.mem_replicate] at later
        obtain ⟨copy, ⟨-, rfl⟩, inside⟩ := later
        exact List.all_eq_true.1 (readable.indent _ indented) c inside

theorem Layout.Readable.comma (readable : layout.Readable) (depth : Nat) :
    Lexes (layout.itemSeparator ++ layout.newLine depth) [.comma] :=
  (lexes_around readable.items rfl).append (readable.newLine depth)

end Lexes

/-! ## The order of members -/

/-- The key of the first entry comes no later than that of the second one. -/
def KeyLe {β : Type} (first second : Text × β) : Prop :=
  Text.le first.1 second.1 = true

instance {β : Type} : DecidableRel (KeyLe (β := β)) := fun _ _ =>
  inferInstanceAs (Decidable (_ = true))

/-- Members in the order in which they are printed. -/
def Layout.arrange {β : Type} (layout : Layout) (members : List (Text × β)) : List (Text × β) :=
  if layout.sortKeys then members.insertionSort KeyLe else members

section Arrange

variable {β γ : Type} (layout : Layout)

theorem sortMembers_eq (entries : List (Text × Text)) :
    sortMembers entries = entries.insertionSort KeyLe := by
  have inserted : ∀ (entry : Text × Text) (sorted : List (Text × Text)),
      insertMember entry sorted = sorted.orderedInsert KeyLe entry := by
    intro entry sorted
    induction sorted with
    | nil => rfl
    | cons next rest ih =>
        rw [insertMember, List.orderedInsert_cons, ih]
        rfl
  induction entries with
  | nil => rfl
  | cons entry rest ih => rw [sortMembers, List.insertionSort_cons, inserted, ih]

theorem Layout.arrange_perm (members : List (Text × β)) :
    (layout.arrange members).Perm members := by
  unfold arrange
  split
  · exact List.perm_insertionSort KeyLe members
  · exact List.Perm.refl _

/-- What is done to the values only can be done before or behind. -/
theorem Layout.arrange_map (change : β → γ) (members : List (Text × β)) :
    layout.arrange (members.map fun entry => (entry.1, change entry.2)) =
      (layout.arrange members).map fun entry => (entry.1, change entry.2) := by
  unfold arrange
  split
  · refine (List.map_insertionSort KeyLe KeyLe (fun entry => (entry.1, change entry.2)) members
      fun first _ second _ => ?_).symm
    exact Iff.rfl
  · rfl

end Arrange

mutual

/-- The value with the members of each object in the order in which they are printed. -/
def arranged (layout : Layout) : Json → Json
  | .array items => .array (arrangedItems layout items)
  | .object members => .object (layout.arrange (arrangedMembers layout members))
  | value => value

def arrangedItems (layout : Layout) : List Json → List Json
  | [] => []
  | item :: rest => arranged layout item :: arrangedItems layout rest

def arrangedMembers (layout : Layout) : List (Text × Json) → List (Text × Json)
  | [] => []
  | (key, value) :: rest => (key, arranged layout value) :: arrangedMembers layout rest

end

section Arranged

variable (layout : Layout)

theorem arranged_text (text : Text) : arranged layout (.text text) = .text text := by
  simp [arranged]

theorem arranged_array (items : List Json) :
    arranged layout (.array items) = .array (items.map (arranged layout)) := by
  rw [arranged]
  congr 1
  induction items with
  | nil => rfl
  | cons item rest ih => rw [arrangedItems, ih, List.map_cons]

theorem arranged_object (members : List (Text × Json)) :
    arranged layout (.object members) =
      .object ((layout.arrange members).map fun entry => (entry.1, arranged layout entry.2)) := by
  rw [arranged, ← Layout.arrange_map]
  congr 2
  induction members with
  | nil => rfl
  | cons entry rest ih => rw [arrangedMembers, ih, List.map_cons]

end Arranged

/-! ## Values that are written -/

/-- A value made of texts alone, and no key is there twice in an object. -/
inductive IsTextual : Json → Prop
  | text (value : Text) : IsTextual (.text value)
  | array {items : List Json} (all : ∀ item ∈ items, IsTextual item) : IsTextual (.array items)
  | object {members : List (Text × Json)} (distinct : (members.map Prod.fst).Nodup)
      (all : ∀ entry ∈ members, IsTextual entry.2) : IsTextual (.object members)

/-- The text is read as tokens that take the machine from where a value is due behind the value. -/
def Writes (text : Text) (value : Json) : Prop :=
  ∃ tokens, Lexes text tokens ∧
    ∀ stack, (Machine.awaitValue stack).run tokens = .ok (.behind stack value)

/-- A text that is a written value is parsed as the value. -/
theorem Writes.parse {text : Text} {value : Json} (writes : Writes text value) :
    Json.parse text = .ok value := by
  obtain ⟨tokens, lexes, reads⟩ := writes
  have whole : Token.ofText text = (tokens, true) := by
    have last := lexes [] []
    rw [List.append_nil, List.append_nil] at last
    rw [Token.ofText, last]
    simp [Lexer.run, Lexer.finish]
  simp only [Json.parse, whole, reads]
  rfl

theorem writes_text (ascii : Bool) (text : Text) : Writes (quotedForm ascii text) (.text text) :=
  ⟨_, Lexes.quoted ascii text, fun _ => rfl⟩

/-! ## Arrays and objects -/

section Machine

variable {stack stackBehind : List Frame} {tokens : List Token} {token : Token} {value : Json}
variable {machine after : Machine}

theorem run_cons (stepped : machine.step token = .ok after) :
    machine.run (token :: tokens) = after.run tokens := by
  rw [Machine.run, List.foldlM_cons, stepped]
  rfl

/-- What can be read where an item is due can be read as the first item. -/
theorem run_firstItem (reads : (Machine.awaitValue (.items [] :: stack)).run tokens =
    .ok (.behind stackBehind value)) :
    (Machine.awaitFirstItem stack).run tokens = .ok (.behind stackBehind value) := by
  cases tokens with
  | nil => exact absurd reads (by simp [Machine.run, pure, Except.pure])
  | cons token rest => cases token <;> first | exact reads | exact nomatch reads

/-- What can be read where a key is due can be read as the first key. -/
theorem run_firstKey (reads : (Machine.awaitKey stack []).run tokens =
    .ok (.behind stackBehind value)) :
    (Machine.awaitFirstKey stack).run tokens = .ok (.behind stackBehind value) := by
  cases tokens with
  | nil => exact absurd reads (by simp [Machine.run, pure, Except.pure])
  | cons token rest => cases token <;> first | exact reads | exact nomatch reads

end Machine

section Enclosed

variable {α : Type} {separator closing : Text} {layout : Layout} {depth : Nat}

/-- Written items with commas between them, up to the bracket behind the last one. -/
theorem writes_items (comma : Lexes separator [.comma]) (close : Lexes closing [.closeArray])
    {form : α → Text} {value : α → Json} {items : List α} (some : items ≠ [])
    (written : ∀ item ∈ items, Writes (form item) (value item)) :
    ∃ tokens, Lexes (Text.join separator (items.map form) ++ closing) tokens ∧
      ∀ stack before, (Machine.awaitValue (.items before :: stack)).run tokens =
        .ok (.behind stack (.array (before.reverse ++ items.map value))) := by
  induction items with
  | nil => exact absurd rfl some
  | cons item rest ih =>
      obtain ⟨⟨tokens, lexes, reads⟩, later⟩ := List.forall_mem_cons.1 written
      cases rest with
      | nil =>
          refine ⟨tokens ++ [.closeArray], lexes.append close, fun stack before => ?_⟩
          rw [Machine.run_append, reads, Except.bind, run_cons rfl, List.reverse_cons]
          rfl
      | cons next more =>
          obtain ⟨others, lexesOthers, readsOthers⟩ := ih (by simp) later
          refine ⟨tokens ++ ([.comma] ++ others), ?_, fun stack before => ?_⟩
          · have joined := lexes.append (comma.append lexesOthers)
            simpa [Text.join] using joined
          · rw [Machine.run_append, reads, Except.bind, List.singleton_append, run_cons rfl,
              readsOthers]
            simp

/-- Written members with commas between them, up to the brace behind the last one. -/
theorem writes_members (ascii : Bool) {keySeparator : Text} (comma : Lexes separator [.comma])
    (colon : Lexes keySeparator [.colon]) (close : Lexes closing [.closeObject])
    {form : α → Text} {value : α → Json} {members : List (Text × α)} (some : members ≠ [])
    (written : ∀ entry ∈ members, Writes (form entry.2) (value entry.2)) :
    ∃ tokens, Lexes (Text.join separator (members.map fun entry =>
        quotedForm ascii entry.1 ++ keySeparator ++ form entry.2) ++ closing) tokens ∧
      ∀ stack before, (before.map Prod.fst ++ members.map Prod.fst).Nodup →
        (Machine.awaitKey stack before).run tokens =
          .ok (.behind stack (.object (before ++
            members.map fun entry => (entry.1, value entry.2)))) := by
  induction members with
  | nil => exact absurd rfl some
  | cons entry rest ih =>
      obtain ⟨key, item⟩ := entry
      obtain ⟨⟨tokens, lexes, reads⟩, later⟩ := List.forall_mem_cons.1 written
      have member : Lexes (quotedForm ascii key ++ keySeparator ++ form item)
          ([.text key] ++ [.colon] ++ tokens) :=
        ((Lexes.quoted ascii key).append colon).append lexes
      have readsMember : ∀ stack before, (Machine.awaitKey stack before).run
          ([.text key] ++ [.colon] ++ tokens) =
          .ok (.behind (.member before key :: stack) (value item)) := fun stack before =>
        reads (.member before key :: stack)
      have put : ∀ {before : List (Text × Json)},
          (before.map Prod.fst ++ ((key, item) :: rest).map Prod.fst).Nodup →
          Keyed.put key (value item) before = before ++ [(key, value item)] := by
        intro before distinct
        refine Keyed.put_of_not_mem (fun there => ?_) _
        exact List.disjoint_of_nodup_append distinct there List.mem_cons_self
      cases rest with
      | nil =>
          refine ⟨_, member.append close, fun stack before distinct => ?_⟩
          rw [Machine.run_append, readsMember, Except.bind, run_cons rfl, put distinct]
          rfl
      | cons next more =>
          obtain ⟨others, lexesOthers, readsOthers⟩ := ih (by simp) later
          refine ⟨[.text key] ++ [.colon] ++ tokens ++ ([.comma] ++ others), ?_,
            fun stack before distinct => ?_⟩
          · have joined := member.append (comma.append lexesOthers)
            simpa [Text.join] using joined
          · rw [Machine.run_append, readsMember, Except.bind, List.singleton_append, run_cons rfl,
              put distinct, readsOthers]
            · simp
            · simpa using distinct

/-- An array is written where its items are. -/
theorem writes_array (readable : layout.Readable) {form : α → Text} {value : α → Json}
    {items : List α} (written : ∀ item ∈ items, Writes (form item) (value item)) :
    Writes (enclose layout depth '[' ']' (items.map form)) (.array (items.map value)) := by
  have opens : Lexes ['['] [.openArray] := .single rfl
  have closes : Lexes [']'] [.closeArray] := .single rfl
  cases items with
  | nil => exact ⟨_, opens.append closes, fun _ => rfl⟩
  | cons first rest =>
      obtain ⟨tokens, lexes, reads⟩ := writes_items (readable.comma (depth + 1))
        ((readable.newLine depth).append closes) (by simp) written
      refine ⟨.openArray :: tokens, ?_, fun stack => run_firstItem (reads stack [])⟩
      have whole := (opens.append (readable.newLine (depth + 1))).append lexes
      simpa [enclose] using whole

/-- An object is written where its members are, in this order. -/
theorem writes_object (readable : layout.Readable) {form : α → Text} {value : α → Json}
    {members : List (Text × α)} (distinct : (members.map Prod.fst).Nodup)
    (written : ∀ entry ∈ members, Writes (form entry.2) (value entry.2)) :
    Writes (enclose layout depth '{' '}' (members.map fun entry =>
        quotedForm layout.ascii entry.1 ++ layout.keySeparator ++ form entry.2))
      (.object (members.map fun entry => (entry.1, value entry.2))) := by
  have opens : Lexes ['{'] [.openObject] := .single rfl
  have closes : Lexes ['}'] [.closeObject] := .single rfl
  cases members with
  | nil => exact ⟨_, opens.append closes, fun _ => rfl⟩
  | cons first rest =>
      obtain ⟨tokens, lexes, reads⟩ := writes_members layout.ascii (readable.comma (depth + 1))
        (lexes_around readable.keys rfl) ((readable.newLine depth).append closes) (by simp) written
      refine ⟨.openObject :: tokens, ?_, fun stack => run_firstKey (reads stack [] distinct)⟩
      have whole := (opens.append (readable.newLine (depth + 1))).append lexes
      simpa [enclose] using whole

end Enclosed

/-! ## Printed values -/

section Print

variable (layout : Layout) (depth : Nat)

theorem printItems_eq (items : List Json) :
    printItems layout depth items = items.map (printAt layout depth) := by
  induction items with
  | nil => rfl
  | cons item rest ih => rw [printItems, ih, List.map_cons]

theorem printMembers_eq (members : List (Text × Json)) :
    printMembers layout depth members =
      members.map fun entry => (entry.1, printAt layout depth entry.2) := by
  induction members with
  | nil => rfl
  | cons entry rest ih => rw [printMembers, ih, List.map_cons]

theorem printAt_object (members : List (Text × Json)) :
    printAt layout depth (.object members) =
      enclose layout depth '{' '}' ((layout.arrange members).map fun entry =>
        quotedForm layout.ascii entry.1 ++ layout.keySeparator ++
          printAt layout (depth + 1) entry.2) := by
  have ordered : ∀ entries : List (Text × Text),
      (if layout.sortKeys then sortMembers entries else entries) = layout.arrange entries := by
    intro entries
    rw [Layout.arrange, sortMembers_eq]
  rw [printAt, ordered, printMembers_eq, Layout.arrange_map, List.map_map]
  rfl

variable {layout}

/-- A printed value is written, inside however many arrays and objects. -/
theorem writes_print (readable : layout.Readable) {value : Json} (textual : value.IsTextual)
    (depth : Nat) : Writes (printAt layout depth value) (value.arranged layout) := by
  induction textual generalizing depth with
  | text value =>
      rw [printAt, arranged_text]
      exact writes_text layout.ascii value
  | array all ih =>
      rw [printAt, printItems_eq, arranged_array]
      exact writes_array readable fun item member => ih item member (depth + 1)
  | @object members distinct all ih =>
      have same := layout.arrange_perm members
      rw [printAt_object, arranged_object]
      exact writes_object readable ((same.map Prod.fst).nodup_iff.2 distinct)
        fun entry member => ih entry (same.subset member) (depth + 1)

/-- **The round trip of JSON.**  A value made of texts is parsed back from its printed text, with
the members of its objects in the order in which they were printed. -/
theorem parse_print (readable : layout.Readable) {value : Json} (textual : value.IsTextual) :
    Json.parse (Json.print layout value) = .ok (value.arranged layout) :=
  (writes_print readable textual 0).parse

end Print

end TreeGrammar.Json
