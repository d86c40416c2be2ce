import CallFolding.Program.Builder
import CallFolding.Proofs.Children
import CallFolding.Proofs.Eligibility

/-!
What a pass rewrites, and what it puts on record.

Calls are told apart by where they stand: a `Path` is the way down to an expression, by the number
of a child at each step, and a path in a program begins with the number of a function. Putting a
value in the place of the expression at a path (`replaceAt`) is then the smallest change that can be
made to a program, and everything that a pass does to a program is a sequence of such changes, one
for each record of a call that was folded (`rewrites_run`).

An expression holds its children as a program holds its functions: what is at a path is found, and
replaced, in the one that the first number of the path names. So there is one argument for both
(`Tells.list`).
-/

set_option autoImplicit false

namespace CallFolding

/-! ## Places -/

/-- The way down to an expression, by the number of a child at each step. -/
abbrev Path := List Nat

namespace Path

/-- The order in which a pass comes to places: children in turn, and then what they are in. -/
def Before : Path → Path → Prop
  | [], _ => False
  | _ :: _, [] => True
  | i :: path, j :: other => i < j ∨ i = j ∧ Before path other

/-- The place in a list that has one more member in front. -/
def shift : Path → Path
  | [] => []
  | i :: path => (i + 1) :: path

@[simp] theorem shift_eq_nil {path : Path} : path.shift = [] ↔ path = [] := by
  cases path <;> simp [shift]

@[simp] theorem shift_ne_zero_cons {path other : Path} : path.shift ≠ 0 :: other := by
  cases path <;> simp [shift]

@[simp] theorem shift_eq_succ_cons {path other : Path} {i : Nat} :
    path.shift = (i + 1) :: other ↔ path = i :: other := by
  cases path <;> simp [shift]

theorem Before.under {path other : Path} (h : Before path other) (i : Nat) :
    Before (i :: path) (i :: other) :=
  .inr ⟨rfl, h⟩

theorem Before.shift {path other : Path} (h : Before path other) :
    Before path.shift other.shift := by
  cases path with
  | nil => exact h
  | cons i path =>
    cases other with
    | nil => trivial
    | cons j other =>
      rcases h with h | ⟨rfl, h⟩
      · exact .inl (Nat.succ_lt_succ h)
      · exact .inr ⟨rfl, h⟩

/-- The first member of a list comes before the others. -/
theorem before_shift (path other : Path) : Before (0 :: path) other.shift := by
  cases other with
  | nil => trivial
  | cons j other => exact .inl (Nat.succ_pos j)

end Path

/-- The expression at a path. -/
def Expr.at? : Expr → Path → Option Expr
  | e, [] => some e
  | e, i :: path => e.children[i]?.bind (at? · path)

/-- The expression with a value in the place of what is at a path. -/
def Expr.replaceAt (value : Literal) : Path → Expr → Expr
  | [], _ => .const value
  | i :: path, e => e.withChildren (e.children.modify i (replaceAt value path))

namespace Function

/-- The function with its body, if there is one, changed in one place. -/
def replaceAt (value : Literal) (path : Path) (function : Function) : Function :=
  { function with body := function.body.map (Expr.replaceAt value path) }

/-- All there is to a function, except what its body says. -/
def outline (function : Function) : Function × Bool :=
  ({ function with body := none }, function.body.isSome)

end Function

namespace Program

/-- The expression at a path, which begins with the number of a function. -/
def at? (program : Program) : Path → Option Expr
  | [] => none
  | i :: path => program.functions[i]?.bind fun function => function.body.bind (·.at? path)

/-- The function whose body the expression at a path is in. -/
def caller? (program : Program) : Path → Option FunctionId
  | [] => none
  | i :: _ => program.functions[i]?.map (·.id)

/-- The program with a value in the place of what is at a path. -/
def replaceAt (value : Literal) : Path → Program → Program
  | [], program => program
  | i :: path, program => ⟨program.functions.modify i (Function.replaceAt value path)⟩

end Program

/-- A call that a pass has looked at: where it stands in the program, the call as it is written
there, and what was put on record about it. -/
structure Visit where
  path : Path
  call : Call
  record : FoldRecord

namespace Visit

/-- What a visit does, given how to put a value in the place of what is at a path: if the call was
folded, it is replaced. -/
def carryOut {α : Type} (put : Literal → Path → α → α) (visit : Visit) (a : α) : α :=
  match visit.record.verdict with
  | .folded value => put value visit.path a
  | _ => a

/-- What visits do, one after the other. -/
def carryOutAll {α : Type} (put : Literal → Path → α → α) (visits : List Visit) (a : α) : α :=
  visits.foldl (fun a visit => visit.carryOut put a) a

theorem carryOutAll_append {α : Type} (put : Literal → Path → α → α) (visits others : List Visit)
    (a : α) : carryOutAll put (visits ++ others) a =
      carryOutAll put others (carryOutAll put visits a) :=
  List.foldl_append

/-- The visit, seen from where its place has another path. -/
def move (f : Path → Path) (visit : Visit) : Visit :=
  { visit with path := f visit.path }

/-- What is carried out inside a part of something is carried out inside the whole. The part need
not be just anything, as long as it stays what it has to be. -/
theorem carryOutAll_move {α β : Type} {put : Literal → Path → α → α}
    {put' : Literal → Path → β → β} {f : Path → Path} {g : α → β} (P : α → Prop)
    (hkeeps : ∀ value path a, P a → P (put value path a)) {visits : List Visit}
    (hput : ∀ visit ∈ visits, ∀ value a, P a →
      put' value (f visit.path) (g a) = g (put value visit.path a)) {a : α} (ha : P a) :
    carryOutAll put' (visits.map (move f)) (g a) = g (carryOutAll put visits a) := by
  induction visits generalizing a with
  | nil => rfl
  | cons visit visits ih =>
    rw [List.forall_mem_cons] at hput
    -- Only a call that was folded changes anything, so the other verdicts leave it to the rest.
    obtain ⟨path, call, ⟨function, text, verdict⟩⟩ := visit
    cases verdict with
    | folded value =>
      show carryOutAll put' (visits.map (move f)) (put' value (f path) (g a)) = _
      rw [hput.1 value a ha]
      exact ih hput.2 (hkeeps value path a ha)
    | ineligible reason => exact ih hput.2 ha
    | limitExceeded cause => exact ih hput.2 ha
    | faulty cause => exact ih hput.2 ha

/-- The same where the whole is reached by the paths of the part. -/
theorem carryOutAll_inside {α β : Type} {put : Literal → Path → α → α}
    {put' : Literal → Path → β → β} {g : α → β} (P : α → Prop)
    (hkeeps : ∀ value path a, P a → P (put value path a)) {visits : List Visit}
    (hput : ∀ visit ∈ visits, ∀ value a, P a →
      put' value visit.path (g a) = g (put value visit.path a)) {a : α} (ha : P a) :
    carryOutAll put' visits (g a) = g (carryOutAll put visits a) := by
  have hmove := carryOutAll_move (f := id) P hkeeps hput ha
  rwa [show visits.map (move id) = visits from List.map_id visits] at hmove

end Visit

/-! ## Things that hold expressions -/

/-- How to find the expression at a path, and the function it is in, and how to put a value in its
place. -/
structure Access (α : Type) where
  at? : α → Path → Option Expr
  caller? : α → Path → Option FunctionId
  put : Literal → Path → α → α

namespace Access

/-- Expressions in the body of a function. -/
def expr (caller : FunctionId) : Access Expr :=
  ⟨Expr.at?, fun _ _ => some caller, Expr.replaceAt⟩

def function : Access Function :=
  ⟨fun function path => function.body.bind (·.at? path), fun function _ => some function.id,
    Function.replaceAt⟩

/-- In a list, the first number of a path is that of a member. -/
def list {α : Type} (x : Access α) : Access (List α) where
  at? as path :=
    match path with
    | [] => none
    | i :: path => as[i]?.bind (x.at? · path)
  caller? as path :=
    match path with
    | [] => none
    | i :: path => as[i]?.bind (x.caller? · path)
  put value path as :=
    match path with
    | [] => as
    | i :: path => as.modify i (x.put value path)

section

variable {α : Type} (x : Access α) (a : α) (as : List α) (i : Nat) (path : Path)

@[simp] theorem list_at?_nil : x.list.at? as [] = none := rfl

@[simp] theorem list_at?_zero : x.list.at? (a :: as) (0 :: path) = x.at? a path := rfl

@[simp] theorem list_at?_succ :
    x.list.at? (a :: as) ((i + 1) :: path) = x.list.at? as (i :: path) := rfl

end

end Access

namespace Folding

section

variable (program : Program) (options : Options)

/-- These visits tell everything about the calls in `a` that a pass looks at, and about what the
pass makes of `a`. -/
structure Tells {α : Type} (x : Access α) (a a' : α) (new : List FoldRecord)
    (visits : List Visit) : Prop where
  records : visits.map (·.record) = new
  calls : ∀ path call, (∃ visit ∈ visits, visit.path = path ∧ visit.call = call) ↔
    x.at? a path = some call.expr ∧ isCandidate program options call.callee
  callers : ∀ visit ∈ visits, x.caller? a visit.path = some visit.record.function
  ordered : visits.Pairwise fun visit later => Path.Before visit.path later.path
  rewritten : Visit.carryOutAll x.put visits a = a'

end

variable {program : Program} {options : Options}

namespace Tells

variable {α : Type} {x : Access α}

theorem at?_path {a a' : α} {new : List FoldRecord} {visits : List Visit}
    (h : Tells program options x a a' new visits) {visit : Visit} (hmem : visit ∈ visits) :
    x.at? a visit.path = some visit.call.expr :=
  ((h.calls visit.path visit.call).mp ⟨visit, hmem, rfl, rfl⟩).1

/-- In a list, every visit is to one of the members. -/
theorem exists_cons {as as' : List α} {new : List FoldRecord} {visits : List Visit}
    (h : Tells program options x.list as as' new visits) {visit : Visit} (hmem : visit ∈ visits) :
    ∃ i path, visit.path = i :: path := by
  have hat := h.at?_path hmem
  cases hpath : visit.path with
  | nil =>
    rw [hpath] at hat
    cases hat
  | cons i path => exact ⟨i, path, rfl⟩

theorem nil : Tells program options x.list [] [] [] [] where
  records := rfl
  calls path call := by cases path <;> simp [Access.list]
  callers := nofun
  ordered := .nil
  rewritten := rfl

/-- The visits to the first member of a list, and then those to the others. -/
theorem cons {a a' : α} {as as' : List α} {new rest : List FoldRecord} {first others : List Visit}
    (h : Tells program options x a a' new first)
    (hs : Tells program options x.list as as' rest others) :
    Tells program options x.list (a :: as) (a' :: as') (new ++ rest)
      (first.map (Visit.move (0 :: ·)) ++ others.map (Visit.move Path.shift)) where
  records := by
    rw [← h.records, ← hs.records]
    simp [Visit.move, Function.comp_def]
  calls path call := by
    have hsplit : (∃ visit ∈ first.map (Visit.move (0 :: ·)) ++ others.map (Visit.move Path.shift),
        visit.path = path ∧ visit.call = call) ↔
        (∃ visit ∈ first, 0 :: visit.path = path ∧ visit.call = call) ∨
          ∃ visit ∈ others, visit.path.shift = path ∧ visit.call = call := by
      simp [Visit.move, or_and_right, exists_or]
    rw [hsplit]
    -- The first number of a path says which of the two kinds of visit it can be of.
    cases path with
    | nil => simpa using hs.calls [] call
    | cons i path =>
      cases i with
      | zero => simpa using h.calls path call
      | succ i => simpa using hs.calls (i :: path) call
  callers visit hmem := by
    rcases List.mem_append.mp hmem with hmem | hmem
    · obtain ⟨visit, hvisit, rfl⟩ := List.mem_map.mp hmem
      exact h.callers visit hvisit
    · obtain ⟨visit, hvisit, rfl⟩ := List.mem_map.mp hmem
      obtain ⟨i, path, hpath⟩ := hs.exists_cons hvisit
      have hcaller := hs.callers visit hvisit
      simp only [Visit.move, hpath] at hcaller ⊢
      exact hcaller
  ordered := by
    rw [List.pairwise_append, List.pairwise_map, List.pairwise_map]
    refine ⟨h.ordered.imp fun hbefore => hbefore.under 0,
      hs.ordered.imp fun hbefore => hbefore.shift, fun visit hvisit later hlater => ?_⟩
    obtain ⟨visit, -, rfl⟩ := List.mem_map.mp hvisit
    obtain ⟨later, -, rfl⟩ := List.mem_map.mp hlater
    exact Path.before_shift _ _
  rewritten := by
    -- The visits to the first member leave the others alone, and those to the others leave it
    -- alone.
    have hfirst : Visit.carryOutAll x.list.put (first.map (Visit.move (0 :: ·))) (a :: as) =
        a' :: as := by
      rw [← h.rewritten]
      exact Visit.carryOutAll_move (g := (· :: as)) (fun _ => True) (fun _ _ _ _ => trivial)
        (fun _ _ _ _ _ => rfl) trivial
    rw [Visit.carryOutAll_append, hfirst, ← hs.rewritten]
    refine Visit.carryOutAll_move (g := (a' :: ·)) (fun _ => True) (fun _ _ _ _ => trivial)
      (fun visit hmem value as _ => ?_) trivial
    obtain ⟨i, path, hpath⟩ := hs.exists_cons hmem
    rw [hpath]
    rfl

/-- The visits to the members of a list, one after the other. -/
theorem list {as as' : List α} {new : List FoldRecord}
    (h : Fold.Each (fun a a' new => ∃ visits, Tells program options x a a' new visits) as as' new) :
    ∃ visits, Tells program options x.list as as' new visits := by
  induction h with
  | nil => exact ⟨[], nil⟩
  | cons hfirst _ ih =>
    obtain ⟨first, hfirst⟩ := hfirst
    obtain ⟨others, hothers⟩ := ih
    exact ⟨_, hfirst.cons hothers⟩

end Tells

/-! ## Expressions -/

section

variable {caller : FunctionId} {e : Expr} {es : List Expr} {first : List FoldRecord}
  {visits : List Visit}

/-- What is carried out in the children is carried out in the expression. -/
theorem carryOutAll_children
    (h : Tells program options (Access.expr caller).list e.children es first visits) :
    Visit.carryOutAll Expr.replaceAt visits e = e.withChildren es := by
  -- Children are replaced one for one, so there are always as many as the node has.
  have hkeeps : ∀ value path es', es'.length = e.children.length →
      ((Access.expr caller).list.put value path es').length = e.children.length := by
    intro value path es' hlength
    cases path with
    | nil => exact hlength
    | cons i path => exact (List.length_modify ..).trans hlength
  have hput : ∀ visit ∈ visits, ∀ value es', es'.length = e.children.length →
      Expr.replaceAt value visit.path (e.withChildren es') =
        e.withChildren ((Access.expr caller).list.put value visit.path es') := by
    intro visit hmem value es' hlength
    obtain ⟨i, path, hpath⟩ := h.exists_cons hmem
    have hmodified := hkeeps value visit.path es' hlength
    rw [hpath] at hmodified ⊢
    rw [Expr.replaceAt, Expr.children_withChildren hlength]
    exact Expr.withChildren_withChildren hmodified
  have hinside := Visit.carryOutAll_inside _ hkeeps hput rfl
  rwa [Expr.withChildren_children, h.rewritten] at hinside

/-- The visits to the children of an expression, and then to the expression itself if it is a call
that a pass looks at. -/
theorem Tells.node {e' : Expr} {last : List FoldRecord} (own : Option Visit)
    (h : Tells program options (Access.expr caller).list e.children es first visits)
    (hrecord : own.toList.map (·.record) = last)
    (hcall : ∀ call, (∃ visit ∈ own, visit.call = call) ↔
      e = call.expr ∧ isCandidate program options call.callee)
    (hown : ∀ visit ∈ own, visit.path = [] ∧ visit.record.function = caller)
    (hresult : Visit.carryOutAll Expr.replaceAt own.toList (e.withChildren es) = e') :
    Tells program options (Access.expr caller) e e' (first ++ last) (visits ++ own.toList) where
  records := by rw [List.map_append, h.records, hrecord]
  calls path call := by
    cases path with
    | nil =>
      -- The empty path is that of the expression itself, and no visit to a child has it.
      constructor
      · rintro ⟨visit, hmem, hpath, hvisit⟩
        rcases List.mem_append.mp hmem with hmem | hmem
        · obtain ⟨i, path, hcons⟩ := h.exists_cons hmem
          rw [hpath] at hcons
          cases hcons
        · obtain ⟨he, hcandidate⟩ := (hcall call).mp ⟨visit, Option.mem_toList.mp hmem, hvisit⟩
          exact ⟨congrArg some he, hcandidate⟩
      · rintro ⟨hat, hcandidate⟩
        obtain ⟨visit, hmem, hvisit⟩ := (hcall call).mpr ⟨Option.some.inj hat, hcandidate⟩
        exact ⟨visit, List.mem_append_right _ (Option.mem_toList.mpr hmem), (hown visit hmem).1,
          hvisit⟩
    | cons i path =>
      constructor
      · rintro ⟨visit, hmem, hpath, hvisit⟩
        rcases List.mem_append.mp hmem with hmem | hmem
        · exact (h.calls (i :: path) call).mp ⟨visit, hmem, hpath, hvisit⟩
        · rw [(hown visit (Option.mem_toList.mp hmem)).1] at hpath
          cases hpath
      · intro hat
        obtain ⟨visit, hmem, hvisit⟩ := (h.calls (i :: path) call).mpr hat
        exact ⟨visit, List.mem_append_left _ hmem, hvisit⟩
  callers visit hmem := by
    show some caller = _
    rcases List.mem_append.mp hmem with hmem | hmem
    · obtain ⟨i, path, hpath⟩ := h.exists_cons hmem
      have hcaller := h.callers visit hmem
      rw [hpath] at hcaller
      obtain ⟨child, -, hchild⟩ := Option.bind_eq_some_iff.mp hcaller
      exact hchild
    · rw [(hown visit (Option.mem_toList.mp hmem)).2]
  ordered := by
    rw [List.pairwise_append]
    refine ⟨h.ordered, ?_, fun visit hvisit later hlater => ?_⟩
    · cases own <;> simp
    · obtain ⟨i, path, hpath⟩ := h.exists_cons hvisit
      rw [hpath, (hown later (Option.mem_toList.mp hlater)).1]
      trivial
  rewritten := by
    show Visit.carryOutAll Expr.replaceAt _ e = e'
    rw [Visit.carryOutAll_append, carryOutAll_children h, hresult]

end

/-- **The calls of an expression, and what a pass makes of it.** -/
theorem Folds.exists_visits {caller : FunctionId} {e e' : Expr} {new : List FoldRecord}
    (h : Folds program options caller e e' new) :
    ∃ visits, Tells program options (Access.expr caller) e e' new visits := by
  induction e using Expr.induction_on_children generalizing e' new with
  | h e ih =>
    obtain ⟨es, first, last, heach, rfl, hcompletes⟩ := h.exists_children
    have heach' : Fold.Each (fun e e' new =>
        ∃ visits, Tells program options (Access.expr caller) e e' new visits) e.children es first :=
      heach.imp ih
    obtain ⟨visits, hvisits⟩ := Tells.list heach'
    cases hcompletes with
    | kept hcall =>
      refine ⟨_, hvisits.node none rfl (fun other => ?_) (by simp) rfl⟩
      -- An expression that is no call has no visit of its own.
      have hnot : e ≠ other.expr := by
        rintro rfl
        cases hcall
      simp [hnot]
    | @settled call call' _ _ heq hnode hcallee hsettled =>
      have hother : ∀ other : Call, e = other.expr ↔ call = other := by
        intro other
        rw [heq]
        exact ⟨Call.expr_injective, congrArg Call.expr⟩
      cases hsettled with
      | skipped hskipped =>
        refine ⟨_, hvisits.node none rfl (fun other => ?_) (by simp) hnode⟩
        rw [hother]
        rw [hcallee] at hskipped
        have hnot : call = other → ¬ isCandidate program options other.callee := by
          rintro rfl
          exact hskipped
        simpa using hnot
      | @judged verdict hlooked _ =>
        let visit : Visit := ⟨[], call, ⟨caller, program.render call'.expr, verdict⟩⟩
        refine ⟨_, hvisits.node (some visit) rfl (fun other => ?_) (by simp [visit]) ?_⟩
        · rw [hother]
          rw [hcallee] at hlooked
          have hcandidate : call = other → isCandidate program options other.callee := by
            rintro rfl
            exact hlooked
          simpa [visit] using hcandidate
        · rw [hnode]
          cases verdict <;> rfl

/-! ## Functions and programs -/

theorem FoldsFunction.exists_visits {function function' : Function} {new : List FoldRecord}
    (h : FoldsFunction program options function function' new) :
    ∃ visits, Tells program options Access.function function function' new visits := by
  obtain ⟨body', rfl, hbody⟩ := h
  obtain ⟨id, name, owner, receiver, parameters, returnType, body⟩ := function
  cases hbody with
  | none =>
    refine ⟨[], rfl, fun path call => ?_, nofun, .nil, rfl⟩
    simp [Access.function]
  | some hbody =>
    obtain ⟨visits, hvisits⟩ := hbody.exists_visits
    refine ⟨visits, hvisits.records, hvisits.calls, hvisits.callers, hvisits.ordered, ?_⟩
    rw [← hvisits.rewritten]
    exact Visit.carryOutAll_inside
      (g := fun e => Function.mk id name owner receiver parameters returnType (some e))
      (fun _ => True) (fun _ _ _ _ => trivial) (fun _ _ _ _ _ => rfl) trivial

/-- A program holds its functions in a list. -/
theorem at?_functions (path : Path) :
    Access.function.list.at? program.functions.toList path = program.at? path := by
  cases path with
  | nil => rfl
  | cons i path => simp [Access.list, Access.function, Program.at?]

theorem caller?_functions (path : Path) :
    Access.function.list.caller? program.functions.toList path = program.caller? path := by
  cases path with
  | nil => rfl
  | cons i path =>
    simp [Access.list, Access.function, Program.caller?, Option.map_eq_bind]

theorem replaceAt_functions (value : Literal) (path : Path) (functions : List Function) :
    Program.replaceAt value path ⟨functions.toArray⟩ =
      ⟨(Access.function.list.put value path functions).toArray⟩ := by
  cases path with
  | nil => rfl
  | cons i path => simp [Program.replaceAt, Access.list, Access.function]

theorem FoldsFunction.outline_eq {function function' : Function} {new : List FoldRecord}
    (h : FoldsFunction program options function function' new) :
    function'.outline = function.outline := by
  obtain ⟨body, rfl, hbody⟩ := h
  obtain ⟨id, name, owner, receiver, parameters, returnType, body⟩ := function
  cases hbody <;> rfl

/-- Where functions stand at the positions that their numbers say, a path begins with the number of
the function it leads into. -/
theorem exists_of_caller? (hnumbered : program.IsNumbered) {path : Path} {id : FunctionId}
    (h : program.caller? path = some id) : ∃ rest, path = id.index :: rest := by
  cases path with
  | nil => cases h
  | cons i rest =>
    obtain ⟨function, hfunction, hid⟩ := Option.map_eq_some_iff.mp h
    have hindex : function.id = ⟨i⟩ := hnumbered ⟨i⟩ function hfunction
    refine ⟨rest, ?_⟩
    rw [← hid, hindex]

/-- Visits in order are to functions in order. -/
theorem function_le_of_before (hnumbered : program.IsNumbered) {path other : Path}
    {id id' : FunctionId} (h : program.caller? path = some id)
    (h' : program.caller? other = some id') (hbefore : Path.Before path other) :
    id.index ≤ id'.index := by
  obtain ⟨rest, rfl⟩ := exists_of_caller? hnumbered h
  obtain ⟨rest', rfl⟩ := exists_of_caller? hnumbered h'
  rcases hbefore with hlt | ⟨heq, -⟩
  · omega
  · omega

/-- **A pass rewrites only what it reports.** The functions stay what they are but for their bodies.
The calls of marked functions, each at its place, are visited in order, operands before the call
they belong to and functions by their numbers; there is one record for each visit, with the function
whose body the call is in. The folded program is what becomes of the program if, visit after visit,
each call that is on record as folded is replaced by its value. -/
theorem rewrites_run {folded : Folded} (h : run program options = .ok folded) :
    folded.program.functions.toList.map Function.outline =
      program.functions.toList.map Function.outline ∧
    ∃ visits : List Visit,
      visits.map (·.record) = folded.records.toList ∧
      (∀ path call, (∃ visit ∈ visits, visit.path = path ∧ visit.call = call) ↔
        program.at? path = some call.expr ∧ isCandidate program options call.callee) ∧
      (∀ visit ∈ visits, program.caller? visit.path = some visit.record.function) ∧
      visits.Pairwise (fun visit later => Path.Before visit.path later.path) ∧
      (program.IsNumbered → folded.records.toList.Pairwise
        fun record later => record.function.index ≤ later.function.index) ∧
      folded.program = Visit.carryOutAll Program.replaceAt visits program := by
  have heach := folds_run program options h
  have hvisited : Fold.Each (fun function function' new =>
      ∃ visits, Tells program options Access.function function function' new visits)
      program.functions.toList folded.program.functions.toList folded.records.toList :=
    heach.imp fun _ _ => FoldsFunction.exists_visits
  obtain ⟨visits, hvisits⟩ := Tells.list hvisited
  have hcallers : ∀ visit ∈ visits, program.caller? visit.path = some visit.record.function := by
    simpa only [caller?_functions] using hvisits.callers
  refine ⟨?_, visits, hvisits.records, ?_, hcallers, hvisits.ordered, ?_, ?_⟩
  -- Everything but the bodies is taken over function by function.
  · rw [← List.forall₂_eq_eq_eq, List.forall₂_map_left_iff, List.forall₂_map_right_iff]
    refine heach.forall₂.flip.imp fun function' function hfunction => ?_
    obtain ⟨new, hnew⟩ := hfunction
    exact FoldsFunction.outline_eq hnew
  · simpa only [at?_functions] using hvisits.calls
  -- Records are in the order of visits, and visits in the order of functions.
  · intro hnumbered
    rw [← hvisits.records, List.pairwise_map]
    refine hvisits.ordered.imp_of_mem fun {visit later} hvisit hlater hbefore => ?_
    exact function_le_of_before hnumbered (hcallers visit hvisit) (hcallers later hlater) hbefore
  · have hinside : Visit.carryOutAll Program.replaceAt visits ⟨program.functions.toList.toArray⟩ =
        ⟨(Visit.carryOutAll Access.function.list.put visits
          program.functions.toList).toArray⟩ :=
      Visit.carryOutAll_inside (fun _ => True) (fun _ _ _ _ => trivial)
        (fun visit _ value functions _ => replaceAt_functions value visit.path functions) trivial
    rw [hvisits.rewritten] at hinside
    exact hinside.symm

/-- `evalAdd` adds two numbers. In `main`, one of the calls has only constants below it, and another
has a variable. -/
def operands : Program :=
  Prod.snd <| Build.run do
    let add ← Build.declare "evalAdd" [("a", .int), ("b", .int)] .int
    let sum ← Build.intOp "plus" (.read "a" add) (.read "b" add)
    Build.define add (.block [.returnFrom add sum])
    let main ← Build.declare "main" [("k", .int)] .int
    Build.define main (.block
      [.call add none [.call add none [.int 1, .int 2], .int 3],
        .returnFrom main (.call add none [.read "k" main, .call add none [.int 4, .int 5]])])

/-- Three of the four calls are folded. The first of them is gone with the one around it, and the
third is an operand of the one that stays. -/
theorem rewrites_run_operands : ∃ folded, run operands {} = .ok folded ∧
    folded.records.toList.map (·.verdict) = [.folded (.int 3), .folded (.int 6), .folded (.int 9),
      .ineligible (.foreignVariable "k" ⟨2⟩)] ∧
    ∃ visits : List Visit, visits.map (·.record) = folded.records.toList ∧
      (∃ visit ∈ visits, visit.path = [2, 0, 0] ∧ visit.call = ⟨⟨0⟩, none, [.int 1, .int 2]⟩) ∧
      (∃ visit ∈ visits, visit.path = [2, 1, 0] ∧ visit.call =
        ⟨⟨0⟩, none, [.read "k" ⟨2⟩, .call ⟨0⟩ none [.int 4, .int 5]]⟩) ∧
      folded.program = Visit.carryOutAll Program.replaceAt visits operands := by
  obtain ⟨folded, hrun, hverdicts⟩ := exists_folded operands {}
    (f := (·.records.toList.map (·.verdict))) (a := [.folded (.int 3), .folded (.int 6),
      .folded (.int 9), .ineligible (.foreignVariable "k" ⟨2⟩)]) (by decide +kernel)
  obtain ⟨-, visits, hrecords, hcalls, -, -, -, hprogram⟩ := rewrites_run hrun
  refine ⟨folded, hrun, hverdicts, visits, hrecords, ?_, ?_, hprogram⟩
  · exact (hcalls _ _).mpr ⟨rfl, by decide +kernel⟩
  · exact (hcalls _ _).mpr ⟨rfl, by decide +kernel⟩

end Folding

end CallFolding
