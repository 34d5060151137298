import FancyTokens.Grammar.Rule

/-!
# The stack of modes

The scanner keeps the modes it has entered. The outermost one is always `root`, which is why the
stack holds only those above it.
-/
namespace FancyTokens

structure Stack where
  /-- The modes entered since `root`, innermost first. -/
  above : List Mode
deriving DecidableEq, Repr

namespace Stack

/-- The stack of a scan that has not begun. -/
def base : Stack :=
  ⟨[]⟩

/-- The modes on the stack, innermost first. -/
def toList (stack : Stack) : List Mode :=
  stack.above ++ [.root]

/-- The mode that the scanner is in. -/
def top (stack : Stack) : Mode :=
  stack.above.head?.getD .root

/-- The number of modes on the stack. -/
def depth (stack : Stack) : Nat :=
  stack.above.length + 1

/-- The stack after a mode has been entered. -/
def push (stack : Stack) (mode : Mode) : Stack :=
  ⟨mode :: stack.above⟩

/-- The mode that is left, and the stack without it. The outermost mode is never left. -/
def pop? (stack : Stack) : Option (Mode × Stack) :=
  match stack.above with
  | [] => none
  | mode :: above => some (mode, ⟨above⟩)

theorem toList_base : base.toList = [.root] := rfl

theorem toList_push (stack : Stack) (mode : Mode) :
    (stack.push mode).toList = mode :: stack.toList := rfl

theorem toList_of_pop? {stack rest : Stack} {mode : Mode} (h : stack.pop? = some (mode, rest)) :
    stack.toList = mode :: rest.toList := by
  obtain ⟨above⟩ := stack
  cases above with
  | nil => cases h
  | cons _ above =>
    cases h
    rfl

theorem head?_toList (stack : Stack) : stack.toList.head? = some stack.top := by
  obtain ⟨above⟩ := stack
  cases above <;> rfl

theorem length_toList (stack : Stack) : stack.toList.length = stack.depth := by
  simp [toList, depth]

end Stack
end FancyTokens
