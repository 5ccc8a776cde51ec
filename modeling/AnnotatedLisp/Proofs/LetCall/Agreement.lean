import AnnotatedLisp.Proofs.LetCall.Forms
import AnnotatedLisp.Proofs.Renaming.Closed

/-!
A `let` does what the call of a function literal does.

Both make one scope, in the same place of the store, bind the same parameter to the same value in it and
evaluate the same body there. They make nodes in another order: a `let` binds first and then makes one form
of its body, a function literal has that form before it is called, and is a node itself. The renaming between
the two moves the nodes of the binding behind those of the literal, and all later nodes by one.
-/

namespace AnnotatedLisp

open Eval

/-- The second store has the scopes of the first but for the names of the nodes, all that there were before
among them, and the same text was written. -/
structure Store.SameEffect (rename : NodeId → NodeId) (s t u : Store) : Prop where
  kept : s.scopes.size ≤ u.scopes.size
  scopes : ∀ id < u.scopes.size, u.scopes[id]? = t.scopes[id]?.map (Scope.relabel rename)
  output : u.output = t.output

/-- Of two evaluations that begin in the store `s`, each has the outcomes of the other but for the names of
the nodes. -/
structure Corresponds (rename : NodeId → NodeId) (s : Store)
    (first second : Except Error Value → Store → Prop) : Prop where
  forth : ∀ result t, first result t →
    ∃ u, second (Error.relabelResult rename (Form.relabel rename) result) u ∧ s.SameEffect rename t u
  back : ∀ result u, second result u →
    ∃ result' t, first result' t ∧ Error.relabelResult rename (Form.relabel rename) result' = result ∧
      s.SameEffect rename t u

namespace Renaming

/-- Where the call has the nodes of the `let`, if nodes are made from `start` on, `bound` of them by the
binding and `made` for the body. The node between those two of the call is the function. -/
def shuffle (start bound made node : Nat) : Nat :=
  if node < start then node
  else if node < start + bound then node + (made + 1)
  else if node < start + bound + made then node - bound
  else node + 1

theorem shuffle_injective (start bound made : Nat) : Function.Injective (shuffle start bound made) := by
  intro m n same
  simp only [shuffle] at same
  split_ifs at same <;> omega

theorem shuffle_of_lt {start bound made : Nat} : ∀ node < start, shuffle start bound made node = node :=
  fun _ old => if_pos old

/-- The names of the nodes that the binding makes. -/
def ofBinding (start bound made : Nat) : Renaming where
  rename := shuffle start bound made
  injective := shuffle_injective start bound made
  first := start
  last := some (start + bound)
  offset := made + 1
  rename_made node above below := by
    rw [shuffle, if_neg (Nat.not_lt.2 above), if_pos (below _ rfl)]

/-- The names of the nodes that are made once the body has its form. -/
def ofBody (start bound made : Nat) : Renaming where
  rename := shuffle start bound made
  injective := shuffle_injective start bound made
  first := start + bound + made
  last := none
  offset := 1
  rename_made node above _ := by
    rw [shuffle, if_neg, if_neg, if_neg (Nat.not_lt.2 above)]
    · exact Nat.not_lt.2 (Nat.le_trans (Nat.le_add_right _ _) above)
    · exact Nat.not_lt.2 (Nat.le_trans (Nat.le_trans (Nat.le_add_right _ _) (Nat.le_add_right _ _)) above)

theorem relabel_bodyAt {start bound : Nat} {body : List Value}
    (before : ∀ form ∈ body, form.Before start) :
    (Special.bodyAt (start + bound) body).relabel (shuffle start bound (Special.bodyNodes body)) =
      Special.bodyAt start body := by
  have fixed : body.map (Form.relabel (shuffle start bound (Special.bodyNodes body))) = body :=
    Form.map_relabel_eq before shuffle_of_lt
  rcases body with _ | ⟨form, _ | ⟨next, forms⟩⟩
  · rfl
  · exact (List.cons.inj fixed).1
  · have moved : shuffle start bound 1 (start + bound) = start := by simp [shuffle]
    exact (Form.relabel_seq _ _ _ _).trans
      (congrArg₂ (fun node forms => Form.seq node .list (.symbol "do" :: forms)) moved fixed)

end Renaming

section Agreement

variable {rename : NodeId → NodeId} {s t u : Store}

theorem Store.sameEffect_of_stores {r : Renaming} (related : r.Stores t u)
    (kept : s.scopes.size ≤ t.scopes.size) : s.SameEffect r.rename t u where
  kept := related.size ▸ kept
  scopes _ _ := by rw [related.scopes, Array.getElem?_map]
  output := related.output

theorem Store.SameEffect.congr {t' u' : Store} (same : s.SameEffect rename t u)
    (scopes : t.scopes = t'.scopes) (output : t.output = t'.output) (scopes' : u'.scopes = u.scopes)
    (output' : u'.output = u.output) : s.SameEffect rename t' u' where
  kept := scopes' ▸ same.kept
  scopes := scopes ▸ scopes' ▸ same.scopes
  output := output'.trans (same.output.trans output)

/-- Two evaluations that fail in the same way. -/
theorem corresponds_of_errors {host : Host} (monotone : host.Monotone) {ctx : Context}
    {first second : Value} {scope : ScopeId} {error : Error}
    (fails : Evaluates host ctx first scope s (.error error) t)
    (fails' : Evaluates host ctx second scope s (.error (error.relabel rename)) u)
    (same : s.SameEffect rename t u) :
    Corresponds rename s (Evaluates host ctx first scope s) (Evaluates host ctx second scope s) where
  forth result v ends := by
    obtain ⟨rfl, rfl⟩ := (evaluate_growing monotone ctx first scope).ends_unique ends fails
    exact ⟨u, fails', same⟩
  back result v ends := by
    obtain ⟨rfl, rfl⟩ := (evaluate_growing monotone ctx second scope).ends_unique ends fails'
    exact ⟨.error error, t, fails, rfl, same⟩

end Agreement

section Main

open Special Renaming

variable {host : Host} (monotone : host.Monotone) (equivariant : host.Equivariant) {ctx : Context}
  {scope : ScopeId} {s t u : Store}

theorem sameEffect_of_old {rename : NodeId → NodeId} (closed : s.Closed)
    (fixed : ∀ node < s.nextNode, rename node = node)
    (old : ∀ id < s.scopes.size, t.scopes[id]? = s.scopes[id]?) (output : s.output = t.output) :
    s.SameEffect rename t s where
  kept := Nat.le_refl _
  scopes id before := by
    rw [old id before]
    cases here : s.scopes[id]? with
    | none => rfl
    | some frame =>
        have same : frame.relabel rename = frame := Scope.relabel_eq_self_iff.2 fun binding mem =>
          (closed id frame here binding mem).relabel_eq fixed
        rw [Option.map_some, same]
  output := output

include monotone equivariant

/-- Forms correspond if those that take their place do. -/
theorem corresponds_of_tailSteps {r : Renaming} (unbounded : r.last = none) (off : ctx.annotate = false)
    (below : ctx.depth < ctx.limit) {first second form : Value} {inner : ScopeId}
    (tail : TailStep host ctx ⟨first, scope, s⟩ ⟨form, inner, t⟩)
    (tail' : TailStep host ctx ⟨second, scope, s⟩ ⟨r.value form, inner, u⟩) (related : r.Stores t u) :
    Corresponds r.rename s (Evaluates host ctx first scope s) (Evaluates host ctx second scope s) where
  forth result v ends := by
    have inside := (ends_iff_of_tailStep monotone off below tail).1 ends
    obtain ⟨w, inside', same⟩ := exists_evaluates equivariant (.refl ctx) unbounded related inside
    exact ⟨w, (ends_iff_of_tailStep monotone off below tail').2 inside',
      Store.sameEffect_of_stores same (precedes_of_evaluates equivariant ends).scopes⟩
  back result v ends := by
    have inside := (ends_iff_of_tailStep monotone off below tail').1 ends
    obtain ⟨result', w, inside', renamed, same⟩ :=
      exists_evaluates_back equivariant (.refl ctx) unbounded related inside
    have ends' := (ends_iff_of_tailStep monotone off below tail).2 inside'
    exact ⟨result', w, ends', renamed,
      Store.sameEffect_of_stores same (precedes_of_evaluates equivariant ends').scopes⟩

variable {spec value : Value} {body : List Value}

omit monotone equivariant in
/-- The binding is the same in the new scope of a `let` and in that of a call, where nodes were made before
it. -/
theorem exists_agrees_bind (closed : s.Closed) (specified : spec.Before s.nextNode)
    (given : value.Before s.nextNode) (outer : Option ScopeId) (made : Nat) :
    ∃ bound, (left (Params.bind s.scopes.size spec value (s.addScope outer).2)).nextNode =
        s.nextNode + bound ∧
      (ofBinding s.nextNode bound made).Agrees id
        (Params.bind s.scopes.size spec value (s.addScope outer).2)
        (Params.bind s.scopes.size spec value ((s.withNodes (made + 1)).addScope outer).2) := by
  have kept := (carries_bind (r := .identity) s.scopes.size spec value).keeps (s.addScope outer).2
  obtain ⟨bound, counted⟩ := Nat.exists_eq_add_of_le kept.nodes
  refine ⟨bound, counted, ?_⟩
  have start : (ofBinding s.nextNode bound made).Stores s (s.withNodes (made + 1)) :=
    stores_of_closed closed shuffle_of_lt (Nat.le_refl _) rfl rfl rfl
  have agrees := (carries_bind s.scopes.size spec value).agrees (start.addScope outer) (by
    rintro _ ⟨⟩
    exact Nat.le_of_eq counted)
  have fixed : ∀ node < s.nextNode, (ofBinding s.nextNode bound made).rename node = node := shuffle_of_lt
  rwa [Renaming.value, specified.relabel_eq fixed, given.relabel_eq fixed] at agrees

section Unstamped

variable (off : ctx.annotate = false) (single : spec ≠ .symbol Params.restMarker) (inhabited : body ≠ [])
  (lets : s.Macroless "let" scope) (functions : s.Macroless "fn" scope)
  (quotes : s.Macroless "quote" scope) (nested : s.WellFounded) (present : scope < s.scopes.size)
  (closed : s.Closed) (before : ∀ form ∈ spec :: value :: body, form.Before s.nextNode)
  (kind kind' : SeqKind) (node pairs quoted node' head params quoted' : NodeId)

include off single inhabited lets functions quotes nested present closed before

theorem corresponds_of_levels (below : ctx.nested.depth < ctx.limit) :
    ∃ bound, Corresponds (shuffle s.nextNode bound (bodyNodes body)) s
      (Evaluates host ctx (letForm node pairs quoted kind spec value body) scope s)
      (Evaluates host ctx (callForm node' head params quoted' kind' spec value body) scope s) := by
  obtain ⟨specified, given, inside⟩ : spec.Before s.nextNode ∧ value.Before s.nextNode ∧
      ∀ form ∈ body, form.Before s.nextNode := by simpa using before
  obtain ⟨bound, counted, agrees⟩ :=
    exists_agrees_bind closed specified given (some scope) (bodyNodes body)
  have quotes' : (s.addScope (some scope)).2.Macroless "quote" s.scopes.size := by
    intro label params body outer
    rw [Store.lookup_newScope nested present]
    exact quotes label params body outer
  generalize ends : Params.bind s.scopes.size spec value
    ((s.withNodes (bodyNodes body + 1)).addScope (some scope)).2 = outcome at agrees
  refine ⟨bound, ?_⟩
  obtain ⟨t, ok⟩ | ⟨error, t, failed⟩ :=
    Params.bind_ok_or_error s.scopes.size spec value (s.addScope (some scope)).2
  · rw [ok] at agrees counted
    have counted : t.nextNode = s.nextNode + bound := counted
    cases agrees with
    | @ok _ _ u related =>
        have tail : TailStep host ctx ⟨letForm node pairs quoted kind spec value body, scope, s⟩
            ⟨bodyAt t.nextNode body, s.scopes.size, t.withNodes (bodyNodes body)⟩ :=
          tailStep_let monotone off below lets quotes' inhabited ok
        have tail' : TailStep host ctx ⟨callForm node' head params quoted' kind' spec value body, scope, s⟩
            ⟨(bodyAt t.nextNode body).relabel (shuffle s.nextNode bound (bodyNodes body)), s.scopes.size,
              u⟩ := by
          rw [counted, relabel_bodyAt inside]
          exact tailStep_call monotone off below functions quotes inhabited single ends
        -- From here on the nodes of the call are one ahead: its function is the one the `let` lacks.
        have onward : (ofBody s.nextNode bound (bodyNodes body)).Stores (t.withNodes (bodyNodes body)) u :=
          ⟨related.scopes, Nat.add_le_add_right (Nat.le_of_eq counted.symm) _, related.nextNode,
            related.output⟩
        exact corresponds_of_tailSteps monotone equivariant rfl off (Nat.lt_of_succ_lt below) tail tail'
          onward
  · rw [failed] at agrees
    cases agrees with
    | error related =>
        have fails : Evaluates host ctx (letForm node pairs quoted kind spec value body) scope s
            (.error error) t := evaluates_let_error monotone off below lets quotes' failed
        exact corresponds_of_errors monotone fails
          (evaluates_call_error monotone off below functions quotes inhabited single ends)
          (Store.sameEffect_of_stores related (precedes_of_evaluates equivariant fails).scopes)

theorem corresponds_of_unstamped :
    ∃ bound, Corresponds (shuffle s.nextNode bound (bodyNodes body)) s
      (Evaluates host ctx (letForm node pairs quoted kind spec value body) scope s)
      (Evaluates host ctx (callForm node' head params quoted' kind' spec value body) scope s) := by
  by_cases below : ctx.nested.depth < ctx.limit
  · exact corresponds_of_levels monotone equivariant off single inhabited lets functions quotes nested
      present closed before kind kind' node pairs quoted node' head params quoted' below
  · have last : ctx.limit ≤ ctx.nested.depth := Nat.le_of_not_lt below
    by_cases here : ctx.depth < ctx.limit
    · exact ⟨0, corresponds_of_errors monotone (evaluates_let_of_refused monotone off here last lets)
        (evaluates_call_of_refused monotone off here last)
        (sameEffect_of_old closed shuffle_of_lt (fun _ old => Store.getElem?_addScope old _) rfl)⟩
    · have refused : ctx.limit ≤ ctx.depth := Nat.le_of_not_lt here
      exact ⟨0, corresponds_of_errors monotone (ends_of_refused (c := ⟨_, _, _⟩) refused)
        (ends_of_refused (c := ⟨_, _, _⟩) refused)
        (sameEffect_of_old closed shuffle_of_lt (fun _ _ => rfl) rfl)⟩

end Unstamped

omit monotone in
/-- Stamps are no part of what has to correspond. -/
theorem corresponds_of_alike {rename : NodeId → NodeId} {a b : Context} (alike : a.Alike b)
    {first second : Value}
    (h : Corresponds rename s (Evaluates host b first scope s) (Evaluates host b second scope s)) :
    Corresponds rename s (Evaluates host a first scope s) (Evaluates host a second scope s) where
  forth result t ends := by
    obtain ⟨t', ends', scopes, output⟩ := exists_evaluates_of_alike equivariant alike ends
    obtain ⟨u', ends'', same⟩ := h.forth result t' ends'
    obtain ⟨u, ends, scopes', output'⟩ := exists_evaluates_of_alike equivariant alike.symm ends''
    exact ⟨u, ends, same.congr scopes output scopes' output'⟩
  back result u ends := by
    obtain ⟨u', ends', scopes', output'⟩ := exists_evaluates_of_alike equivariant alike ends
    obtain ⟨result', t', ends'', renamed, same⟩ := h.back result u' ends'
    obtain ⟨t, ends, scopes, output⟩ := exists_evaluates_of_alike equivariant alike.symm ends''
    exact ⟨result', t, ends, renamed, same.congr scopes.symm output.symm scopes'.symm output'.symm⟩

end Main

/-- A `let` of one binding and the call of a function literal have the same outcomes, whatever the parameter,
the value, the body and the limit: the same values and thrown values but for the names of the nodes made
meanwhile, the same errors, also those of the binding and of the limit, and no outcome only together. The
scopes they leave are the same, the new ones included, which have the same places in the store. What `do` is
bound to does not matter. -/
theorem let_corresponds_to_call {host : Host} (monotone : host.Monotone)
    (equivariant : host.Equivariant) (ctx : Context) (scope : ScopeId) (s : Store)
    (nested : s.WellFounded) (present : scope < s.scopes.size) (closed : s.Closed)
    (lets : s.Macroless "let" scope) (functions : s.Macroless "fn" scope)
    (quotes : s.Macroless "quote" scope) (spec value : Value) (body : List Value)
    (before : ∀ form ∈ spec :: value :: body, form.Before s.nextNode)
    (single : spec ≠ .symbol Params.restMarker) (inhabited : body ≠ []) (kind kind' : SeqKind)
    (node pairs quoted node' head params quoted' : NodeId) :
    ∃ rename : NodeId → NodeId, Function.Injective rename ∧
      (∀ old < s.nextNode, rename old = old) ∧
      Corresponds rename s
        (Evaluates host ctx (letForm node pairs quoted kind spec value body) scope s)
        (Evaluates host ctx (callForm node' head params quoted' kind' spec value body) scope s) := by
  have off : ({ ctx with annotate := false } : Context).annotate = false := rfl
  have alike : ctx.Alike { ctx with annotate := false } := ⟨rfl, rfl⟩
  obtain ⟨bound, unstamped⟩ := corresponds_of_unstamped monotone equivariant off single inhabited lets
    functions quotes nested present closed before kind kind' node pairs quoted node' head params quoted'
  exact ⟨_, Renaming.shuffle_injective _ _ _, Renaming.shuffle_of_lt,
    corresponds_of_alike equivariant alike unstamped⟩

/-- `(let [[& rest] (quote (true))] nil rest)` has the list of `true` as its value, hence so has
`((fn [[& rest]] nil rest) (quote (true)))`. -/
theorem call_of_let_with_rest :
    let s : Store := ⟨#[⟨[], none⟩], 9, ∅, ""⟩
    let spec : Value := .seq 0 .vector [.symbol "&", .symbol "rest"]
    let value : Value := .seq 1 .list [.bool true]
    let body : List Value := [.nil, .symbol "rest"]
    let t : Store := ⟨#[⟨[], none⟩, ⟨[("rest", .seq 9 .list [.bool true])], some 0⟩], 11, ∅, ""⟩
    s.WellFounded ∧ s.Closed ∧ (∀ form ∈ spec :: value :: body, form.Before s.nextNode) ∧
      Evaluates Host.none (.top false) (letForm 2 3 4 .vector spec value body) 0 s
        (.ok (.seq 9 .list [.bool true])) t ∧
      ∃ node u, Evaluates Host.none (.top false) (callForm 5 6 7 8 .vector spec value body) 0 s
        (.ok (.seq node .list [.bool true])) u := by
  intro s spec value body t
  have nested : s.WellFounded := by
    intro id frame here outer around
    cases id with
    | zero =>
        cases here
        cases around
    | succ id => cases here
  have closed : s.Closed := by
    intro id frame here binding mem
    cases id with
    | zero =>
        cases here
        cases mem
    | succ id => cases here
  have before : ∀ form ∈ spec :: value :: body, form.Before s.nextNode := by
    simp [spec, value, body, Form.Before, Form.AllLabels, Form.ItemsLabels, s]
  have evaluates : Evaluates Host.none (.top false) (letForm 2 3 4 .vector spec value body) 0 s
      (.ok (.seq 9 .list [.bool true])) t := by
    dsimp only [s, spec, value, body, t]
    exact ⟨5, rfl⟩
  obtain ⟨rename, _, _, corresponds⟩ := let_corresponds_to_call Host.none_monotone Host.none_equivariant
    (.top false) 0 s nested (by decide) closed nofun nofun nofun spec value body before nofun nofun
    .vector .vector 2 3 4 5 6 7 8
  obtain ⟨u, call, _⟩ := corresponds.forth _ t evaluates
  exact ⟨nested, closed, before, evaluates, _, u, call⟩

end AnnotatedLisp
