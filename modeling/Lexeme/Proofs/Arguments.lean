import Lexeme.Command.Arguments

/-!
Arguments after other arguments. What is typed later is laid over what was typed before, by
`Typed.followedBy`, and reading on from something typed comes to reading afresh and laying the result
over it, by `read_followedBy`: one lemma for each reader, and an induction on the arguments. So
options put in front of a command line count just where it is silent itself.
-/

namespace Lexeme.Command.Typed

/-- What is typed first, with what is typed after it laid over it. -/
def followedBy (a b : Typed) : Typed where
  expr := b.expr.or a.expr
  format := b.format.or a.format
  noEof := a.noEof || b.noEof
  strict := b.strict.or a.strict
  verbose := b.verbose.or a.verbose
  page := a.page.or b.page
  operands := a.operands ++ b.operands

theorem followedBy_empty (a : Typed) : a.followedBy {} = a := by
  simp [followedBy]

theorem put_followedBy (a b : Typed) (v : Valued) (value : Raw) :
    (a.followedBy b).put v value = a.followedBy (b.put v value) := by
  cases v <;> rfl

theorem turn_followedBy (a b : Typed) (s : Switch) :
    (a.followedBy b).turn s = a.followedBy (b.turn s) := by
  cases s with
  | noEof => simp [turn, followedBy]
  | strict on | verbose on => rfl
  | page p => simp [turn, followedBy]

theorem addOperands_followedBy (a b : Typed) (names : List Raw) :
    (a.followedBy b).addOperands names = a.followedBy (b.addOperands names) := by
  simp [addOperands, followedBy]

theorem readLong_followedBy (a b : Typed) (argument : Raw) :
    (a.followedBy b).readLong argument =
      (b.readLong argument).map fun r => (a.followedBy r.1, r.2) := by
  simp only [readLong]
  split
  · rfl
  · rfl
  · rw [put_followedBy]
    rfl
  · rw [turn_followedBy]
    rfl
  · rfl

theorem readCluster_followedBy (a b : Typed) (letters : Raw) :
    (a.followedBy b).readCluster letters =
      (b.readCluster letters).map fun r => (a.followedBy r.1, r.2) := by
  induction letters generalizing b with
  | nil => rfl
  | cons c rest ih =>
    rw [readCluster, readCluster]
    split
    · rfl
    · rw [turn_followedBy]
      exact ih _
    · split
      · rfl
      · rw [put_followedBy]
        rfl

theorem readArgument_followedBy (a b : Typed) (argument : Raw) :
    (a.followedBy b).readArgument argument =
      (b.readArgument argument).map fun r => (a.followedBy r.1, r.2) := by
  unfold readArgument
  split
  · exact readLong_followedBy a b _
  · exact readCluster_followedBy a b _
  · rw [addOperands_followedBy]
    rfl

theorem read_followedBy (a b : Typed) (awaited : Option Awaited) (arguments : List Raw) :
    (a.followedBy b).read awaited arguments = (b.read awaited arguments).map a.followedBy := by
  induction arguments generalizing b awaited with
  | nil => cases awaited <;> rfl
  | cons argument rest ih =>
    cases awaited with
    | some w =>
      rw [read, read, put_followedBy]
      exact ih _ none
    | none =>
      rw [read, read]
      split
      · rw [addOperands_followedBy]
        rfl
      · rw [readArgument_followedBy]
        cases b.readArgument argument with
        | error u => rfl
        | ok r => exact ih _ _

theorem read_eq (t : Typed) (arguments : List Raw) :
    t.read none arguments = (ofArguments arguments).map t.followedBy := by
  have h := read_followedBy t {} none arguments
  rwa [followedBy_empty] at h

end Lexeme.Command.Typed
