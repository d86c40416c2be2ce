import CallFolding.Folding.Diagnostic
import CallFolding.Proofs.Rewriting

/-!
Where the text of an expression stands in the text of what it is in.

An expression is written at some depth when it stands alone and at another when it stands in its
function, so the two texts need not be the same. Two facts settle when they are. No node leaves out
or changes the text of a child, which it writes at its own depth or one level deeper
(`occurs_child`); so whatever is inside an expression stands somewhere in its text, written at some
depth (`exists_occurs_at`). And the depth comes in only after a line break: a text of one line is
the same at every depth (`renderAt_eq_of_isLine`).
-/

set_option autoImplicit false

namespace CallFolding

/-! ## Texts in texts -/

/-- `part` stands in `text` without a gap. -/
def Occurs (part text : String) : Prop :=
  ∃ before after, text = before ++ part ++ after

namespace Occurs

variable {part text : String}

@[grind ←] theorem refl (text : String) : Occurs text text :=
  ⟨"", "", by rw [String.empty_append, String.append_empty]⟩

@[grind ←] theorem append_left (h : Occurs part text) (more : String) :
    Occurs part (more ++ text) := by
  obtain ⟨before, after, rfl⟩ := h
  exact ⟨more ++ before, after, by simp only [String.append_assoc]⟩

@[grind ←] theorem append_right (h : Occurs part text) (more : String) :
    Occurs part (text ++ more) := by
  obtain ⟨before, after, rfl⟩ := h
  exact ⟨before, after ++ more, by simp only [String.append_assoc]⟩

/-- What stands in a part stands in the whole. -/
theorem trans {whole : String} (h : Occurs part text) (h' : Occurs text whole) :
    Occurs part whole := by
  obtain ⟨before, after, rfl⟩ := h'
  exact (h.append_left before).append_right after

/-- Joined texts, with or without something in between, are all there. -/
theorem intercalate (separator : String) {texts : List String} (h : part ∈ texts) :
    Occurs part (separator.intercalate texts) := by
  induction texts with
  | nil => cases h
  | cons first rest ih =>
    by_cases hrest : rest = []
    · subst hrest
      rw [List.mem_singleton.mp h, String.intercalate_singleton]
      exact .refl first
    · rw [String.intercalate_cons_of_ne_nil hrest]
      rcases List.mem_cons.mp h with rfl | h
      · rw [String.append_assoc]
        exact (refl part).append_right _
      · exact (ih h).append_left _

theorem join {texts : List String} (h : part ∈ texts) : Occurs part (String.join texts) := by
  induction texts with
  | nil => cases h
  | cons first rest ih =>
    rw [String.join_cons]
    rcases List.mem_cons.mp h with rfl | h
    · exact (refl part).append_right _
    · exact (ih h).append_left _

end Occurs

/-- The text has no line break. -/
def IsLine (text : String) : Prop :=
  '\n' ∉ text.toList

instance (text : String) : Decidable (IsLine text) :=
  inferInstanceAs (Decidable ('\n' ∉ text.toList))

/-- A part of a line has no line break. -/
theorem IsLine.of_occurs {part text : String} (h : IsLine text) (hoccurs : Occurs part text) :
    IsLine part := by
  obtain ⟨before, after, rfl⟩ := hoccurs
  intro hmem
  apply h
  simp only [String.toList_append, List.mem_append]
  exact .inl (.inr hmem)

/-! ## Searching -/

/-- What the search counts are the bytes before the pattern. -/
theorem bytesBefore?_eq_some {pattern text : List Char} {n : Nat}
    (h : bytesBefore? pattern text = some n) :
    ∃ before after, text = before ++ pattern ++ after ∧
      n = (String.ofList before).utf8ByteSize := by
  induction text generalizing n with
  | nil =>
    rw [bytesBefore?] at h
    split at h
    · rename_i hempty
      cases h
      exact ⟨[], [], by simpa using hempty, rfl⟩
    · cases h
  | cons c rest ih =>
    rw [bytesBefore?] at h
    split at h
    · rename_i hprefix
      cases h
      obtain ⟨after, hafter⟩ := List.isPrefixOf_iff_prefix.mp hprefix
      exact ⟨[], after, hafter.symm, rfl⟩
    · obtain ⟨k, hk, rfl⟩ := Option.map_eq_some_iff.mp h
      obtain ⟨before, after, hrest, rfl⟩ := ih hk
      refine ⟨c :: before, after, by rw [hrest]; rfl, ?_⟩
      rw [String.ofList_cons, String.utf8ByteSize_append, String.utf8ByteSize_singleton]

/-- Nothing comes before a pattern that the text begins with. -/
theorem bytesBefore?_of_prefix {pattern text : List Char} (h : pattern <+: text) :
    bytesBefore? pattern text = some 0 := by
  cases text with
  | nil =>
    rw [List.prefix_nil.mp h]
    rfl
  | cons c rest => rw [bytesBefore?, if_pos (List.isPrefixOf_iff_prefix.mpr h)]

/-- A pattern that is there is found. -/
theorem isSome_bytesBefore? (pattern before after : List Char) :
    (bytesBefore? pattern (before ++ pattern ++ after)).isSome := by
  induction before with
  | nil =>
    rw [List.nil_append, bytesBefore?_of_prefix (List.prefix_append pattern after)]
    rfl
  | cons c before ih =>
    rw [List.cons_append, List.cons_append, bytesBefore?]
    split
    · rfl
    · rw [Option.isSome_map]
      exact ih

namespace Span

/-- The bytes of a text that a span is about. -/
def bytes (span : Span) (text : String) : ByteArray :=
  text.toUTF8.extract span.start (span.start + span.length)

/-- At a span that was found, there is what was looked for. -/
theorem bytes_of_find? {text part : String} {span : Span} (h : find? text part = some span) :
    span.bytes text = part.toUTF8 := by
  obtain ⟨n, hn, rfl⟩ := Option.map_eq_some_iff.mp h
  obtain ⟨before, after, htext, rfl⟩ := bytesBefore?_eq_some hn
  have hbytes : text.toUTF8 =
      (String.ofList before).toUTF8 ++ (part.toUTF8 ++ (String.ofList after).toUTF8) := by
    rw [← String.ofList_toList (s := text), htext]
    simp only [String.toUTF8, String.ofList_append, String.toByteArray_append,
      ByteArray.append_assoc, String.ofList_toList]
  rw [bytes, hbytes]
  -- The bytes before come off first, and what follows the part is cut off.
  refine (ByteArray.extract_append_size_add (i := 0)).trans ?_
  exact ByteArray.extract_append_eq_left rfl

/-- What stands in a text is found there. -/
theorem isSome_find? {text part : String} (h : Occurs part text) : (find? text part).isSome := by
  obtain ⟨before, after, rfl⟩ := h
  rw [find?, Option.isSome_map, String.toList_append, String.toList_append]
  exact isSome_bytesBefore? _ _ _

end Span

/-! ## Calls, lines, lists -/

namespace Render

/-- However a call is written, it is written with all its operands. -/
theorem occurs_call (name : String) {receiver : Option String} {args : List String}
    {text : String} (h : text ∈ receiver.toList ++ args) :
    Occurs text (call name receiver args) := by
  unfold call
  -- Operators stand between their operands, everything else before or after them.
  split
  · rename_i operator left right _ hoperands
    rw [hoperands] at h
    rcases List.mem_pair.mp h with rfl | rfl
    · grind
    · grind
  · split
    · rename_i operand _
      rw [List.mem_singleton.mp h]
      grind
    · rename_i operand _
      rw [List.mem_singleton.mp h]
      grind
    · rename_i operand _ _ _
      rcases List.mem_cons.mp h with rfl | h
      · grind
      · have hargs : Occurs text (", ".intercalate args) := .intercalate ", " h
        grind
    · have hargs : Occurs text (", ".intercalate args) := .intercalate ", " h
      grind

/-- Lines between braces are all there. -/
theorem occurs_braced (depth : Nat) {lines : List String} {line : String} (h : line ∈ lines) :
    Occurs line (braced depth lines) := by
  have hjoin := Occurs.join (List.mem_map_of_mem
    (f := fun line => indent (depth + 1) ++ line ++ "\n") h)
  have hline := ((Occurs.refl line).append_left (indent (depth + 1))).append_right "\n"
  exact (((hline.trans hjoin).append_left _).append_right _).append_right _

theorem not_isLine_braced (depth : Nat) (lines : List String) : ¬ IsLine (braced depth lines) := by
  intro h
  apply h
  unfold braced
  simp only [String.toList_append, List.mem_append]
  -- There is a line break behind the opening brace.
  exact .inl (.inl (.inl (by decide)))

end Render

/-- How many levels deeper than the node its children are written. -/
def Expr.inset : Expr → Nat
  | block _ => 1
  | branch _ => 1
  | _ => 0

/-- The children of a branch are the tests and results of its arms. -/
theorem Expr.mem_children_branch {arms : List (Expr × Expr)} {child : Expr}
    (h : child ∈ (branch arms).children) : ∃ arm ∈ arms, child = arm.1 ∨ child = arm.2 := by
  induction arms with
  | nil => cases h
  | cons arm arms ih =>
    rw [children_branch_cons, List.mem_cons, List.mem_cons] at h
    rcases h with h | h | h
    · exact ⟨arm, List.mem_cons_self, .inl h⟩
    · exact ⟨arm, List.mem_cons_self, .inr h⟩
    · obtain ⟨arm', hmem, heq⟩ := ih h
      exact ⟨arm', List.mem_cons_of_mem arm hmem, heq⟩

namespace Program

open Render

variable (program : Program)

/-- An expression that may be missing is written if it is there. -/
theorem renderOption_eq (depth : Nat) (e : Option Expr) :
    program.renderOption depth e = e.map (program.renderAt depth) := by
  cases e <;> rfl

/-- A list is written expression by expression. -/
theorem renderEach_eq (depth : Nat) (es : List Expr) :
    program.renderEach depth es = es.map (program.renderAt depth) := by
  induction es with
  | nil => rfl
  | cons e es ih => rw [renderEach, ih, List.map_cons]

/-- Arms are written with an arrow between their parts. -/
theorem renderArms_eq (depth : Nat) (arms : List (Expr × Expr)) :
    program.renderArms depth arms =
      arms.map fun arm =>
        program.renderAt depth arm.1 ++ " -> " ++ program.renderAt depth arm.2 := by
  induction arms with
  | nil => rfl
  | cons arm arms ih => rw [renderArms, ih, List.map_cons]

/-! ## What a node does with its children -/

/-- **Every child is written out in full,** at the depth of the node or one level deeper. -/
theorem occurs_child (depth : Nat) {e child : Expr} (h : child ∈ e.children) :
    Occurs (program.renderAt (depth + e.inset) child) (program.renderAt depth e) := by
  cases e with
  | const value => cases h
  | read name owner => cases h
  | declare name type init =>
    rw [Expr.children_declare, Option.mem_toList] at h
    cases h
    rw [renderAt, renderOption]
    exact (Occurs.refl _).append_left _
  | assign name owner value =>
    rw [List.mem_singleton.mp h, renderAt]
    exact (Occurs.refl _).append_left _
  | call id receiver args =>
    rw [Expr.children_call] at h
    rw [renderAt, renderOption_eq, renderEach_eq]
    apply occurs_call
    rw [Option.toList_map, ← List.map_append]
    exact List.mem_map_of_mem h
  | block statements =>
    rw [Expr.children_block] at h
    cases statements with
    | nil => cases h
    | cons first rest =>
      rw [renderAt, renderEach_eq, ← List.map_cons]
      exact occurs_braced depth (List.mem_map_of_mem h)
  | branch arms =>
    obtain ⟨arm, harm, hchild⟩ := Expr.mem_children_branch h
    rw [renderAt, renderArms_eq]
    apply Occurs.append_left
    refine Occurs.trans ?_ (occurs_braced depth (List.mem_map_of_mem harm))
    rcases hchild with rfl | rfl
    · exact ((Occurs.refl _).append_right _).append_right _
    · exact (Occurs.refl _).append_left _
  | loop kind id label test body =>
    rw [Expr.children_loop] at h
    cases kind with
    | testFirst =>
      rw [renderAt, renderOption_eq]
      rcases List.mem_cons.mp h with rfl | h
      · exact (((Occurs.refl _).append_left _).append_right _).append_right _
      · cases Option.mem_toList.mp h
        exact (Occurs.refl _).append_left _
    | testLast =>
      rw [renderAt, renderOption_eq]
      rcases List.mem_cons.mp h with rfl | h
      · exact ((Occurs.refl _).append_left _).append_right _
      · cases Option.mem_toList.mp h
        exact ((((Occurs.refl _).append_left _).append_right _).append_right _).append_right _
  | returnFrom target value =>
    rw [List.mem_singleton.mp h, renderAt]
    exact (Occurs.refl _).append_left _
  | breakLoop target => cases h
  | continueLoop target => cases h

/-- **What is inside an expression stands in its text,** written at some depth. -/
theorem exists_occurs_at {e inner : Expr} {path : Path} (h : e.at? path = some inner)
    (depth : Nat) :
    ∃ depth', Occurs (program.renderAt depth' inner) (program.renderAt depth e) := by
  induction path generalizing e depth with
  | nil =>
    cases h
    exact ⟨depth, .refl _⟩
  | cons i path ih =>
    obtain ⟨child, hchild, hat⟩ := Option.bind_eq_some_iff.mp h
    obtain ⟨depth', hoccurs⟩ := ih hat (depth + e.inset)
    have hmem := List.mem_of_getElem? hchild
    exact ⟨depth', hoccurs.trans (program.occurs_child depth hmem)⟩

/-- **A text of one line is the same at every depth.** Nodes that write their children deeper break
the line, and all others are made of the texts of their children at their own depth. -/
theorem renderAt_eq_of_isLine {e : Expr} {depth : Nat} (h : IsLine (program.renderAt depth e))
    (other : Nat) : program.renderAt other e = program.renderAt depth e := by
  induction e using Expr.induction_on_children with
  | h e ih =>
    -- A child that is written at the depth of the node is a part of the line, so it is a line
    -- itself.
    have hchild : ∀ child ∈ e.children, e.inset = 0 →
        program.renderAt other child = program.renderAt depth child := by
      intro child hmem hinset
      have hoccurs := program.occurs_child depth hmem
      rw [hinset] at hoccurs
      exact ih child hmem (h.of_occurs hoccurs)
    cases e with
    | const value => rfl
    | read name owner => rfl
    | declare name type init =>
      cases init with
      | none => rfl
      | some init =>
        rw [renderAt, renderAt, renderOption, renderOption, hchild init List.mem_cons_self rfl]
    | assign name owner value => rw [renderAt, renderAt, hchild value List.mem_cons_self rfl]
    | call id receiver args =>
      rw [Expr.children_call] at hchild
      have hreceiver : receiver.map (program.renderAt other) =
          receiver.map (program.renderAt depth) := by
        refine Option.map_congr fun e he => hchild e ?_ rfl
        exact List.mem_append_left _ (Option.mem_toList.mpr he)
      have hargs : args.map (program.renderAt other) = args.map (program.renderAt depth) := by
        refine List.map_congr_left fun e he => hchild e ?_ rfl
        exact List.mem_append_right _ he
      rw [renderAt, renderAt, renderOption_eq, renderOption_eq, renderEach_eq, renderEach_eq,
        hreceiver, hargs]
    | block statements =>
      cases statements with
      | nil => rfl
      | cons first rest =>
        rw [renderAt] at h
        exact absurd h (not_isLine_braced _ _)
    | branch arms =>
      rw [renderAt] at h
      exact absurd (h.of_occurs ((Occurs.refl _).append_left _)) (not_isLine_braced _ _)
    | loop kind id label test body =>
      rw [Expr.children_loop] at hchild
      have htest := hchild test List.mem_cons_self rfl
      have hbody : body.map (program.renderAt other) = body.map (program.renderAt depth) := by
        refine Option.map_congr fun e he => hchild e ?_ rfl
        exact List.mem_cons_of_mem _ (Option.mem_toList.mpr he)
      cases kind with
      | testFirst => rw [renderAt, renderAt, renderOption_eq, renderOption_eq, htest, hbody]
      | testLast => rw [renderAt, renderAt, renderOption_eq, renderOption_eq, htest, hbody]
    | returnFrom target value => rw [renderAt, renderAt, hchild value List.mem_cons_self rfl]
    | breakLoop target => rfl
    | continueLoop target => rfl

/-- A function is written with its body. -/
theorem occurs_renderFunction {id : FunctionId} {function : Function} {body : Expr}
    (hfunction : program.function? id = some function) (hbody : function.body = some body) :
    Occurs (program.render body) (program.renderFunction id) := by
  simp only [renderFunction, hfunction, renderDeclaration, hbody]
  exact (Occurs.refl _).append_left _

/-- **An expression of one line stands in the text of its function as it is written alone.** So it
is found there when it is looked for. -/
theorem render_occurs_of_isLine {i : Nat} {path : Path} {e : Expr}
    (he : program.at? (i :: path) = some e) (hline : IsLine (program.render e)) :
    Occurs (program.render e) (program.renderFunction ⟨i⟩) ∧
      (Span.find? (program.renderFunction ⟨i⟩) (program.render e)).isSome := by
  obtain ⟨function, hfunction, hat⟩ := Option.bind_eq_some_iff.mp he
  obtain ⟨body, hbody, hat⟩ := Option.bind_eq_some_iff.mp hat
  obtain ⟨depth, hoccurs⟩ := program.exists_occurs_at hat 0
  -- The text at that depth is the one that the expression has alone.
  rw [program.renderAt_eq_of_isLine hline depth] at hoccurs
  have hoccurs := hoccurs.trans (program.occurs_renderFunction hfunction hbody)
  exact ⟨hoccurs, Span.isSome_find? hoccurs⟩

/-- In `main`, a branch two blocks down breaks off a loop; its condition is a call with a line break
in its argument. -/
def waiting : Program :=
  Prod.snd <| Build.run do
    let main ← Build.declare "main" [] .unit
    let ready ← Build.declare "evalReady" [("é", .string)] .boolean
    let loop ← Build.newLoop
    let test ← Build.negation (.call ready none [.text "\né"])
    Build.define main (.block [.loop .testLast loop none (.bool true)
      (some (.block [.branch [(test, .breakLoop loop)]]))])

/-- The line break is written as two characters, so the call stands on one line. -/
theorem render_occurs_of_isLine_waiting :
    waiting.at? [0, 0, 1, 0, 0, 0] = some (.call ⟨1⟩ none [.text "\né"]) ∧
      waiting.render (.call ⟨1⟩ none [.text "\né"]) = "evalReady(\"\\n\\u\x7be9\x7d\")" ∧
      IsLine (waiting.render (.call ⟨1⟩ none [.text "\né"])) ∧
      Occurs (waiting.render (.call ⟨1⟩ none [.text "\né"])) (waiting.renderFunction ⟨0⟩) := by
  have hat : waiting.at? [0, 0, 1, 0, 0, 0] = some (.call ⟨1⟩ none [.text "\né"]) := rfl
  have hline : IsLine (waiting.render (.call ⟨1⟩ none [.text "\né"])) := by decide +kernel
  exact ⟨hat, by decide +kernel, hline, (waiting.render_occurs_of_isLine hat hline).1⟩

end Program

end CallFolding
