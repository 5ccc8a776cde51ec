import AnnotatedLisp.Proofs.Constant
import AnnotatedLisp.Proofs.Native.Registry
import AnnotatedLisp.Proofs.Quasiquote.Evaluation
import AnnotatedLisp.Proofs.Renaming.Run

/-!
Three ways to call a core operation.

An operation that was found by its name is called with values, the value that a global scope binds to the name
is applied to them, or a call of the name with the values quoted is evaluated in that scope. All three come to the
same result and make the same nodes. Calls only make nodes, and what they come to does not depend on stamps; the
quoted values stay themselves, since nothing in a global scope is a macro.
-/

namespace AnnotatedLisp

open Eval

/-- All that the computation does is to make nodes. What it comes to and how many it makes depends on nothing but
the first of them. -/
def Eval.OnlyMakesNodes {α : Type} (x : Eval α) : Prop :=
  ∀ first, ∃ result count, ∀ s : Store, s.nextNode = first → x.attempt s = .ok result (s.withNodes count)

section Nodes

variable {α β : Type}

theorem onlyMakesNodes_pure (a : α) : (pure a : Eval α).OnlyMakesNodes :=
  fun _ => ⟨.ok a, 0, fun _ _ => rfl⟩

theorem onlyMakesNodes_raise (error : Error) : (raise error : Eval α).OnlyMakesNodes :=
  fun _ => ⟨.error error, 0, fun _ _ => rfl⟩

theorem onlyMakesNodes_ofExcept (x : Except Error α) : (ofExcept x).OnlyMakesNodes := by
  cases x with
  | ok a => exact onlyMakesNodes_pure a
  | error error => exact onlyMakesNodes_raise error

theorem onlyMakesNodes_newSeq (kind : SeqKind) (items : List Value) : (newSeq kind items).OnlyMakesNodes := by
  intro first
  refine ⟨.ok (.seq first kind items), 1, fun s start => ?_⟩
  subst start
  rfl

theorem onlyMakesNodes_newMap (entries : List (MapKey × Value)) : (newMap entries).OnlyMakesNodes := by
  intro first
  refine ⟨.ok (.map first entries), 1, fun s start => ?_⟩
  subst start
  rfl

theorem Eval.OnlyMakesNodes.bind {x : Eval α} {f : α → Eval β} (before : x.OnlyMakesNodes)
    (after : ∀ a, (f a).OnlyMakesNodes) : (x >>= f).OnlyMakesNodes := by
  intro first
  obtain ⟨result, count, made⟩ := before first
  cases result with
  | error error =>
      exact ⟨.error error, count, fun s start => attempt_bind_eq_iff.2 (.inl ⟨error, rfl, made s start⟩)⟩
  | ok a =>
      obtain ⟨result, more, made'⟩ := after a (first + count)
      refine ⟨result, count + more, fun s start => attempt_bind_eq_iff.2 (.inr ?_)⟩
      have there : (s.withNodes count).nextNode = first + count := congrArg (· + count) start
      rw [← Store.withNodes_withNodes]
      exact ⟨a, _, attempt_eq_value_iff.1 (made s start), made' _ there⟩

theorem onlyMakesNodes_body (op : CoreOp) (args : op.operation.signature.Args) :
    (op.operation.body args).OnlyMakesNodes := by
  cases op with
  | add | subtract | multiply | equal | less | greater | lessEqual | greaterEqual | not | first
  | isList | isVector | symbol | keyword | str => exact onlyMakesNodes_pure _
  | divide | count | isEmpty => exact (onlyMakesNodes_ofExcept _).bind fun _ => onlyMakesNodes_pure _
  | list | cons | rest => exact onlyMakesNodes_newSeq .list _
  | vector => exact onlyMakesNodes_newSeq .vector _
  | hashMap => exact (onlyMakesNodes_ofExcept _).bind onlyMakesNodes_newMap
  | concat => exact (onlyMakesNodes_ofExcept _).bind (onlyMakesNodes_newSeq .list)
  | nth => exact onlyMakesNodes_ofExcept _
  | throw => exact onlyMakesNodes_raise _

theorem onlyMakesNodes_call (op : CoreOp) (args : List Value) : (op.operation.call args).OnlyMakesNodes :=
  (onlyMakesNodes_ofExcept _).bind fun _ => (onlyMakesNodes_ofExcept _).bind (onlyMakesNodes_body op)

end Nodes

/-- The second store differs from the first in nothing but stamps, and not at all if none are made. -/
def Store.Restamps (ctx : Context) (s t : Store) : Prop :=
  ∃ stamps, t = { s with stamps := stamps } ∧ (ctx.annotate = false → stamps = s.stamps)

namespace Store.Restamps

variable {ctx : Context} {s t u : Store}

theorem trans (first : s.Restamps ctx t) (second : t.Restamps ctx u) : s.Restamps ctx u := by
  obtain ⟨stamps, rfl, silent⟩ := first
  obtain ⟨stamps', rfl, silent'⟩ := second
  exact ⟨stamps', rfl, fun off => (silent' off).trans (silent off)⟩

theorem scopes (restamps : s.Restamps ctx t) : t.scopes = s.scopes := by
  obtain ⟨_, rfl, _⟩ := restamps
  rfl

theorem nextNode (restamps : s.Restamps ctx t) : t.nextNode = s.nextNode := by
  obtain ⟨_, rfl, _⟩ := restamps
  rfl

theorem withNodes (restamps : s.Restamps ctx t) (count : Nat) :
    (s.withNodes count).Restamps ctx (t.withNodes count) := by
  obtain ⟨stamps, rfl, silent⟩ := restamps
  exact ⟨stamps, rfl, silent⟩

end Store.Restamps

/-- Each form quotes the value in its place. -/
def Quotes : List Value → List Value → Prop :=
  List.Forall₂ fun value form => ∃ node, form = .seq node .list [.symbol "quote", value]

section Stamped

variable {host : Host} {ctx : Context} {scope : ScopeId} {s : Store}

theorem restamps_noted (form : Value) : s.Restamps ctx (s.noted ctx scope form) :=
  ⟨_, Store.eq_withStamps_of_unstamped_eq (unstamped_noted form),
    fun off => by rw [noted_of_off off]⟩

theorem restamps_of_onlyStamps {x : Eval Unit} (stamps : x.OnlyStamps)
    (silent : ctx.annotate = false → x = pure ()) (s : Store) : ∃ t, x s = .ok () t ∧ s.Restamps ctx t := by
  cases on : ctx.annotate with
  | false =>
      rw [silent on]
      exact ⟨s, rfl, s.stamps, rfl, fun _ => rfl⟩
  | true =>
      obtain ⟨made, stamped⟩ := stamps s
      exact ⟨_, stamped, made, rfl, fun off => absurd (on.symm.trans off) Bool.noConfusion⟩

theorem exists_stamp (ctx : Context) (node : NodeId) (change : Stamps → Stamps) (s : Store) :
    ∃ t, ctx.stamp node change s = .ok () t ∧ s.Restamps ctx t :=
  restamps_of_onlyStamps (onlyStamps_stamp ctx node change) (fun off => stamp_of_off off node change) s

theorem exists_stampAll (ctx : Context) (visited : List NodeId) (value : Value) (s : Store) :
    ∃ t, Run.stampAll ctx visited value s = .ok () t ∧ s.Restamps ctx t :=
  restamps_of_onlyStamps (Renaming.onlyStamps_stampAll ctx visited value)
    (fun off => Simulation.stampAll_of_off off visited value) s

end Stamped

section Routes

variable {host : Host} {ctx : Context} {scope : ScopeId} {s : Store}

theorem lookup_core (global : s.scopes[scope]? = some .global) (op : CoreOp) :
    s.lookup op.name scope = some (.native (.core op)) :=
  (Store.lookup_global_iff global).2 ⟨op, rfl, rfl⟩

theorem ordinary_core (op : CoreOp) : Special.ofHead? (.symbol op.name) = none := by
  cases op <;> rfl

theorem unbound_quote (global : s.scopes[scope]? = some .global) : s.lookup "quote" scope = none := by
  refine Option.eq_none_iff_forall_ne_some.2 fun value bound => ?_
  obtain ⟨op, named, _⟩ := (Store.lookup_global_iff global).1 bound
  have ordinary := ordinary_core op
  rw [named] at ordinary
  cases ordinary

theorem evaluate_symbol_of_bound (below : ctx.depth < ctx.limit) {name : String} {value : Value}
    (bound : s.lookup name scope = some value) (fuel : Nat) :
    evaluate host (fuel + 1) ctx (.symbol name) scope s = .ok value s := by
  rw [evaluate_eq_loop below, loop_of_atom rfl]
  exact lookup_of_bound bound

/-- A list that is no macro call and whose step comes to a value at once is stamped with that value. -/
theorem evaluate_of_step (below : ctx.depth < ctx.limit) {node : NodeId} {items : List Value}
    (plain : s.calledMacro? scope (.seq node .list items) = none) {x : Eval Value} {t : Store} {fuel : Nat}
    (stepped : (Run.evaluatorAt host (fuel + 1)).step ctx scope (.seq node .list items)
      (s.noted ctx scope (.seq node .list items)) = (do return Step.done (← x)) t) :
    evaluate host (fuel + 2) ctx (.seq node .list items) scope s =
      (do let value ← x
          Run.stampAll ctx (if ctx.annotate then [node, node] else []) value
          return value) t := by
  rw [evaluate_eq_loop below, Run.loop]
  refine (bind_of_ok (resolve_of_plain plain)).trans ?_
  -- The step is known only as what `x` leads to, so its outcomes are those of `x`.
  cases ended : x t with
  | ok value u =>
      rw [bind_of_ok ended]
      exact bind_of_ok (stepped.trans (bind_of_ok ended))
  | error stop u =>
      rw [bind_of_error ended]
      exact bind_of_error (stepped.trans (bind_of_error ended))

/-- A quoted value stays itself. The nodes of the form that quotes it may be stamped with it. -/
theorem exists_evaluate_quote (host : Host) (below : ctx.depth < ctx.limit)
    (unbound : s.lookup "quote" scope = none) (node : NodeId) (value : Value) :
    ∃ t, s.Restamps ctx t ∧ ∀ fuel,
      evaluate host (fuel + 2) ctx (.seq node .list [.symbol "quote", value]) scope s = .ok value t := by
  obtain ⟨t, stamped, restamps⟩ := exists_stampAll ctx (if ctx.annotate then [node, node] else []) value s
  refine ⟨t, restamps, fun fuel => ?_⟩
  have plain : s.calledMacro? scope (.seq node .list [.symbol "quote", value]) = none :=
    calledMacro?_of_macroless (fun _ _ _ _ bound => by cases unbound.symm.trans bound) node [value]
  rw [evaluate_of_step below plain (x := pure value) rfl, noted_of_unbound rfl unbound]
  exact bind_of_ok stamped

/-- By induction on the forms, each of which leaves the scopes as they are. -/
theorem exists_enterAll_quotes (host : Host) (below : ctx.nested.depth < ctx.nested.limit)
    (unbound : s.lookup "quote" scope = none) {values forms : List Value} (quotes : Quotes values forms) :
    ∃ t, s.Restamps ctx t ∧ ∀ fuel,
      (Run.evaluatorAt host (fuel + 2)).enterAll ctx scope forms s = .ok values t := by
  induction quotes generalizing s with
  | nil => exact ⟨s, ⟨s.stamps, rfl, fun _ => rfl⟩, fun _ => rfl⟩
  | cons first _ ih =>
      obtain ⟨node, rfl⟩ := first
      obtain ⟨t, restamps, here⟩ := exists_evaluate_quote host below unbound node _
      have unbound' : t.lookup "quote" scope = none :=
        (Store.lookup_congr restamps.scopes "quote" scope).trans unbound
      obtain ⟨u, restamps', others⟩ := ih unbound'
      refine ⟨u, restamps.trans restamps', fun fuel => ?_⟩
      rw [Evaluator.enterAll_cons]
      exact (bind_of_ok (here fuel)).trans (bind_of_ok (others fuel))

/-- The step of a call of the operation stamps at most, then applies it to what was quoted. -/
theorem exists_step_core (host : Host) (ctx : Context) (below : ctx.nested.depth < ctx.nested.limit)
    (global : s.scopes[scope]? = some .global) (op : CoreOp) {args forms : List Value}
    (quotes : Quotes args forms) (node : NodeId) :
    ∃ t, s.Restamps ctx t ∧ ∀ fuel,
      (Run.evaluatorAt host (fuel + 2)).step ctx scope (.seq node .list (.symbol op.name :: forms)) s =
        (do return Step.done (← op.operation.call args)) t := by
  obtain ⟨t, restamps, values⟩ := exists_enterAll_quotes host below (unbound_quote global) quotes
  obtain ⟨u, stamped, restamps'⟩ := exists_stamp ctx node
    (fun stamps => { stamps with applied := some (.native (.core op)) }) t
  refine ⟨u, restamps.trans restamps', fun fuel => ?_⟩
  have head : (Run.evaluatorAt host (fuel + 2)).enter ctx.nested (.symbol op.name) scope s =
      .ok (.native (.core op)) s := evaluate_symbol_of_bound below (lookup_core global op) (fuel + 1)
  rw [Evaluator.step_call _ _ _ (ordinary_core op)]
  exact (bind_of_ok head).trans ((bind_of_ok (values fuel)).trans (bind_of_ok stamped))

/-- The call comes to what the operation comes to in any store with the same next node. -/
theorem exists_evaluate_core (host : Host) (ctx : Context) (below : ctx.nested.depth < ctx.nested.limit)
    (global : s.scopes[scope]? = some .global) (op : CoreOp) {args forms : List Value}
    (quotes : Quotes args forms) (node : NodeId) {result : Except Error Value} {count : Nat}
    (called : ∀ t : Store, t.nextNode = s.nextNode →
      (op.operation.call args).attempt t = .ok result (t.withNodes count)) :
    ∃ t, (s.withNodes count).Restamps ctx t ∧ ∀ fuel,
      (evaluate host (fuel + 3) ctx (.seq node .list (.symbol op.name :: forms)) scope).attempt s =
        .ok result t := by
  have plain : s.calledMacro? scope (.seq node .list (.symbol op.name :: forms)) = none :=
    calledMacro?_of_macroless (Store.macroless_of_native (lookup_core global op)) node forms
  have noted : s.Restamps ctx (s.noted ctx scope (.seq node .list (.symbol op.name :: forms))) :=
    restamps_noted _
  obtain ⟨t, restamps, stepped⟩ := exists_step_core host ctx below (noted.scopes ▸ global) op quotes node
  have before : s.Restamps ctx t := noted.trans restamps
  have evaluated (fuel : Nat) := evaluate_of_step (Nat.lt_of_succ_lt below) plain (stepped fuel)
  have called := called t before.nextNode
  cases result with
  | ok value =>
      obtain ⟨u, stamped, after⟩ := exists_stampAll ctx (if ctx.annotate then [node, node] else []) value
        (t.withNodes count)
      refine ⟨u, (before.withNodes count).trans after, fun fuel => attempt_of_ok ?_⟩
      rw [evaluated]
      exact (bind_of_ok (attempt_eq_value_iff.1 called)).trans (bind_of_ok stamped)
  | error error =>
      refine ⟨t.withNodes count, before.withNodes count, fun fuel => attempt_of_error ?_⟩
      rw [evaluated]
      exact bind_of_error (attempt_eq_error_iff.1 called)

end Routes

/-- Three ways to a core operation. A new global scope binds every one of them to its name. As long as that scope
stays as it was made, calling the operation found by the name, applying the value bound to the name, and
evaluating a call of the name with the arguments quoted, under a limit of at least two levels, come to the same
value or the same error. All of them leave the store as it was but for nodes that were made, the same number each
time, and for stamps if they are made. -/
theorem core_routes_agree (host : Host) (s₀ : Store) :
    ∃ scope s₁, newGlobalScope s₀ = .ok scope s₁ ∧
      ∀ (op : CoreOp) (s : Store), s.scopes[scope]? = s₁.scopes[scope]? →
        CoreOp.ofName? op.name = some op ∧
        ∃ operation, s.lookup op.name scope = some (.native operation) ∧
          ∀ args : List Value, ∃ result count,
            (op.operation.call args).attempt s = .ok result (s.withNodes count) ∧
            (∀ fuel, (applyNative host fuel operation args).attempt s = .ok result (s.withNodes count)) ∧
            ∀ (annotate : Bool) (limit : Nat) (node : NodeId) (forms : List Value), 2 ≤ limit →
              Quotes args forms → ∃ stamps, (annotate = false → stamps = s.stamps) ∧ ∀ fuel,
                (evaluate host (fuel + 3) (.within annotate limit)
                  (.seq node .list (.symbol op.name :: forms)) scope).attempt s =
                    .ok result { s.withNodes count with stamps := stamps } := by
  obtain ⟨scope, s₁, made, global⟩ := newGlobalScope_apply s₀
  refine ⟨scope, s₁, made, fun op s same => ⟨CoreOp.ofName?_name op, .core op, ?_⟩⟩
  have global : s.scopes[scope]? = some .global := same.trans global
  refine ⟨lookup_core global op, fun args => ?_⟩
  obtain ⟨result, count, called⟩ := onlyMakesNodes_call op args s.nextNode
  refine ⟨result, count, called s rfl, fun _ => called s rfl, fun annotate limit node forms enough quotes => ?_⟩
  obtain ⟨_, ⟨stamps, rfl, silent⟩, ends⟩ :=
    exists_evaluate_core host (.within annotate limit) enough global op quotes node called
  exact ⟨stamps, silent, ends⟩

/-- `(cons (quote :a) (quote nil))` makes a node, and `(cons (quote :a) (quote true))` fails, under a limit of two
levels and with stamps just as when `cons` is called. -/
theorem core_routes_agree_of_cons :
    let forms (tail : Value) : List Value :=
      [.seq 4 .list [.symbol "quote", .keyword "a"], .seq 5 .list [.symbol "quote", tail]]
    ∃ scope s, newGlobalScope .empty = .ok scope s ∧
      (∃ stamps, (evaluate Host.none 3 (.within true 2)
          (.seq 6 .list (.symbol "cons" :: forms .nil)) scope).attempt s =
        .ok (.ok (.seq s.nextNode .list [.keyword "a"])) { s.withNodes 1 with stamps := stamps }) ∧
      ∃ stamps, (evaluate Host.none 3 (.within true 2)
          (.seq 6 .list (.symbol "cons" :: forms (.bool true))) scope).attempt s =
        .ok (.error (.expected "list or vector" (.bool true))) { s with stamps := stamps } := by
  intro forms
  obtain ⟨scope, s, made, agree⟩ := core_routes_agree Host.none .empty
  obtain ⟨_, _, _, routes⟩ := agree .cons s rfl
  have quotes (tail : Value) : Quotes [.keyword "a", tail] (forms tail) :=
    .cons ⟨4, rfl⟩ (.cons ⟨5, rfl⟩ .nil)
  refine ⟨scope, s, made, ?_, ?_⟩
  · obtain ⟨result, count, called, _, evaluated⟩ := routes [.keyword "a", .nil]
    obtain ⟨stamps, _, ends⟩ := evaluated true 2 6 (forms .nil) (Nat.le_refl 2) (quotes .nil)
    have joined : (CoreOp.cons.operation.call [.keyword "a", .nil]).attempt s =
        .ok (.ok (.seq s.nextNode .list [.keyword "a"])) (s.withNodes 1) := attempt_of_ok (cons_apply rfl s)
    obtain ⟨same, there⟩ := EStateM.Result.ok.inj (joined.symm.trans called)
    rw [← same, ← there] at ends
    exact ⟨stamps, ends 0⟩
  · obtain ⟨result, count, called, _, evaluated⟩ := routes [.keyword "a", .bool true]
    obtain ⟨stamps, _, ends⟩ := evaluated true 2 6 (forms (.bool true)) (Nat.le_refl 2) (quotes (.bool true))
    have failed : (CoreOp.cons.operation.call [.keyword "a", .bool true]).attempt s =
        .ok (.error (.expected "list or vector" (.bool true))) s := rfl
    obtain ⟨same, there⟩ := EStateM.Result.ok.inj (failed.symm.trans called)
    rw [← same, ← there] at ends
    exact ⟨stamps, ends 0⟩

end AnnotatedLisp
