import MapStyling.WebScript.Parser

/-!
# What Scripts Assign To

The variables that a term writes to and does not declare itself.

A term writes to variables, by assignments and by the declarations that give
them their first values, and to members of objects. A function or a block takes
away the names that it declares, wherever they are written to inside it. What
is left at the outside of a function are its writes to variables it shares with
others. No expression says whose object it is a member of, so a write to a
member is never taken away, and neither is one to the name under which a
function expression sees itself.

A source is inert if reading it runs nothing: it is malformed, a literal or a
function. It is quiet if, in addition, nothing is left of the writes of the
function.

## Main definitions

* `Target`: A variable, or a member of some object.
* `Expression.targets`, `Statement.targets`: The writes that are left.
* `Function.targets`: Those of a function.
* `isInert`, `isQuiet`: Sources by what reading and calling them can write to.
-/

namespace MapStyling

namespace WebScript

/-- What is written to. -/
inductive Target
  | name (n : Units)
  | member
  deriving DecidableEq

namespace Target

/-- Whether a target is a variable of one of some names. -/
def isAmong (names : List Units) : Target → Bool
  | name n => names.contains n
  | member => false

/-- The targets that are no variables of some names. -/
def outside (names : List Units) (targets : List Target) : List Target :=
  targets.filter fun x => !x.isAmong names

theorem mem_outside {names : List Units} {targets : List Target} {x : Target} :
    x ∈ outside names targets ↔ x ∈ targets ∧ x.isAmong names = false := by
  simp only [outside, List.mem_filter, Bool.not_eq_true']

end Target

namespace Statement

/-- Names that statements declare for their own block. -/
def declared (body : List Statement) : List Units :=
  (body.filterMap function?).map Function.name ++ (body.flatMap lexicals).map Prod.fst

/-- Names that a function declares, its parameters included. -/
def declaredBy (parameters : List Units) (body : List Statement) : List Units :=
  parameters ++ hoistedOf body ++ declared body

end Statement

mutual

/-- What an expression writes to and does not declare. -/
def Expression.targets : Expression → List Target
  | .array items => itemTargets items
  | .object entries => entryTargets entries
  | .function _ parameters body | .arrow parameters body =>
    Target.outside (Statement.declaredBy parameters body) (bodyTargets body)
  | .member e key => e.targets ++ key.targets
  | .call e arguments => e.targets ++ allTargets arguments
  | .unary _ e => e.targets
  | .binary _ e f | .both e f | .either e f | .sequence e f => e.targets ++ f.targets
  | .conditional c e f => c.targets ++ e.targets ++ f.targets
  | .assignName n _ e => .name n :: e.targets
  | .assignMember e key _ f => .member :: (e.targets ++ key.targets ++ f.targets)
  | _ => []

def allTargets : List Expression → List Target
  | [] => []
  | e :: rest => e.targets ++ allTargets rest

def itemTargets : List (Option Expression) → List Target
  | [] => []
  | none :: rest => itemTargets rest
  | some e :: rest => e.targets ++ itemTargets rest

def entryTargets : List (Units × Expression) → List Target
  | [] => []
  | (_, e) :: rest => e.targets ++ entryTargets rest

/-- What a statement writes to, the variables that it declares included. -/
def Statement.targets : Statement → List Target
  | .empty => []
  | .expression e | .throw e => e.targets
  | .declare _ bindings => bindingTargets bindings
  | .function name parameters body =>
    .name name :: Target.outside (Statement.declaredBy parameters body) (bodyTargets body)
  | .block body => Target.outside (Statement.declared body) (bodyTargets body)
  | .branch c yes no => c.targets ++ yes.targets ++ no.targets
  | .giveBack none => []
  | .giveBack (some e) => e.targets

def bindingTargets : List (Units × Option Expression) → List Target
  | [] => []
  | (name, none) :: rest => .name name :: bindingTargets rest
  | (name, some e) :: rest => .name name :: (e.targets ++ bindingTargets rest)

def bodyTargets : List Statement → List Target
  | [] => []
  | s :: rest => s.targets ++ bodyTargets rest

end

/-- What a function writes to besides its own variables. -/
def Function.targets (f : Function) : List Target :=
  Target.outside (Statement.declaredBy f.parameters f.body) (bodyTargets f.body)

theorem Expression.targets_function (name : Option Units) (n : Units) (parameters : List Units)
    (body : List Statement) (b : Bool) : (Expression.function name parameters body).targets
      = (Function.mk n parameters body b).targets := by
  rw [Expression.targets, Function.targets]

theorem Expression.targets_arrow (n : Units) (parameters : List Units) (body : List Statement)
    (b : Bool) : (Expression.arrow parameters body).targets
      = (Function.mk n parameters body b).targets := by
  rw [Expression.targets, Function.targets]

/-- The writes of a function that a block declares are those of the block, and so is
    the variable that holds the function. -/
theorem mem_bodyTargets_of_function {body : List Statement} {f : Function}
    (h : f ∈ body.filterMap Statement.function?) :
    Target.name f.name ∈ bodyTargets body ∧ f.targets ⊆ bodyTargets body := by
  induction body with
  | nil => exact absurd h List.not_mem_nil
  | cons s rest ih =>
      by_cases hs : s.function? = some f
      · -- Only a declaration of a function declares one.
        cases s with
        | function name parameters body =>
            simp only [Statement.function?, Option.some.injEq] at hs
            subst hs
            simp only [bodyTargets, Statement.targets, Function.targets]
            exact ⟨List.mem_append_left _ List.mem_cons_self,
              fun x hx => List.mem_append_left _ (List.mem_cons_of_mem _ hx)⟩
        | _ => exact absurd hs (by simp only [Statement.function?, reduceCtorEq,
            not_false_eq_true])
      · have hrest : f ∈ rest.filterMap Statement.function? := by
          rcases hf : s.function? with _ | g
          · rwa [List.filterMap_cons_none hf] at h
          · rw [List.filterMap_cons_some hf] at h
            rcases List.mem_cons.mp h with hfg | hmem
            · exact absurd (hfg ▸ hf) hs
            · exact hmem
        simp only [bodyTargets]
        exact ⟨List.mem_append_right _ (ih hrest).1,
          fun x hx => List.mem_append_right _ ((ih hrest).2 hx)⟩

/-- Whether an expression is a value as it is written. -/
def Expression.isLiteral : Expression → Bool
  | .null | .boolean _ | .number _ | .text _ => true
  | .function _ _ _ | .arrow _ _ => true
  | _ => false

/-- Statements that are no more than a literal. -/
def isLiteralBody : List Statement → Bool
  | [.expression e] => e.isLiteral
  | _ => false

/-- Statements that write to nothing that they do not declare. -/
def isQuietBody (body : List Statement) : Bool :=
  isLiteralBody body && (bodyTargets body).isEmpty

/-- Whether nothing is run when a source is evaluated. -/
def isInert (source : String) : Bool :=
  (parse? source.toList).all isLiteralBody

/-- Whether calling the function of an inert source writes to no variable that the
    source does not declare, and to no member. -/
def isQuiet (source : String) : Bool :=
  (parse? source.toList).all isQuietBody

theorem eq_expression_of_isLiteralBody {body : List Statement} (h : isLiteralBody body = true) :
    ∃ e : Expression, body = [.expression e] ∧ e.isLiteral = true := by
  unfold isLiteralBody at h
  split at h
  · exact ⟨_, rfl, h⟩
  · exact absurd h (by simp only [Bool.false_eq_true, not_false_eq_true])

/-- A quiet source is a literal that has nothing to write to. -/
theorem eq_expression_of_isQuietBody {body : List Statement} (h : isQuietBody body = true) :
    ∃ e : Expression, body = [.expression e] ∧ e.isLiteral = true ∧ e.targets = [] := by
  rw [isQuietBody, Bool.and_eq_true] at h
  rcases eq_expression_of_isLiteralBody h.1 with ⟨e, rfl, he⟩
  have htargets := List.isEmpty_iff.mp h.2
  rw [bodyTargets, bodyTargets, List.append_nil, Statement.targets] at htargets
  exact ⟨e, rfl, he, htargets⟩

end WebScript

end MapStyling
