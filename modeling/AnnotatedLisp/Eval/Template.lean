import AnnotatedLisp.Store.Eval

/-!
Templates: for a quasiquoted form, the calls that build what it describes.

A list or a non-empty vector is built item by item, always into a list, by calls of `cons` and `concat`;
anything else is quoted whole. `(unquote x)` stands for `x` itself, also at the end of a template, where
it gives the remaining items; an item `(splice-unquote x)` stands for the items of `x`.
-/

namespace AnnotatedLisp

namespace Template

def call (name : String) (args : List Value) : Eval Value :=
  Eval.newList (.symbol name :: args)

/-- The form that a template is replaced with, if it stands for it directly. -/
def unquoted? : List Value → Option Value
  | [head, form] => if head.isSymbol "unquote" then some form else none
  | _ => none

/-- The form whose items an item of a template stands for, if it is a splice. -/
def spliced? : Value → Option Value
  | .seq _ _ [head, form] => if head.isSymbol "splice-unquote" then some form else none
  | _ => none

mutual

/-- The form that builds what a template describes. -/
def builder : Value → Eval Value
  | .seq label kind items =>
    if items.isEmpty then call "quote" [.seq label kind items]
    else match unquoted? items with
      | some form => return form
      | none => itemsBuilder items
  | template => call "quote" [template]

/-- The form that builds the list that items of a template describe. -/
def itemsBuilder : List Value → Eval Value
  | [] => do call "quote" [← Eval.newList []]
  | head :: rest =>
    match unquoted? (head :: rest) with
    | some form => return form
    | none => do
      match spliced? head with
      | some form => call "concat" [form, ← itemsBuilder rest]
      | none =>
        let head ← builder head
        call "cons" [head, ← itemsBuilder rest]

end

end Template

end AnnotatedLisp
