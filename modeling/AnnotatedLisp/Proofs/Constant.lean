import AnnotatedLisp.Proofs.Plain
import AnnotatedLisp.Proofs.Renaming.Run
import Mathlib.Data.List.Forall2

/-!
Constant data is its own value.

Vectors and maps of atoms that stand for themselves are made anew, of the same atoms. Each level of them takes a
level of evaluation, and nothing else about them can fail: under a limit above their depth they evaluate to
their like, and under any other limit the first part that lies too deep is refused. Only nodes and stamps are
made on the way.
-/

namespace AnnotatedLisp

open Eval

namespace Form

/-- The form stands for itself: it is no symbol, and neither a vector nor a map nor a list with items. -/
def IsConstantAtom : Value → Prop
  | .symbol _ | .map _ _ => False
  | .seq _ kind items => kind = .list ∧ items = []
  | _ => True

/-- Vectors and maps, nested at will, of atoms that stand for themselves. -/
inductive Constant : Value → Prop
  | atom {form : Value} (atom : form.IsConstantAtom) : Constant form
  | vector {label : NodeId} {items : List Value} (parts : ∀ item ∈ items, Constant item) :
      Constant (.seq label .vector items)
  | map {label : NodeId} {entries : List (MapKey × Value)}
      (parts : ∀ entry ∈ entries, Constant entry.2) : Constant (.map label entries)

mutual

/-- How many levels below its own the parts of the form lie. -/
def depth : Value → Nat
  | .seq _ .vector items => itemsDepth items
  | .map _ entries => entriesDepth entries
  | _ => 0

def itemsDepth : List Value → Nat
  | [] => 0
  | item :: items => max (depth item + 1) (itemsDepth items)

def entriesDepth : List (MapKey × Value) → Nat
  | [] => 0
  | (_, value) :: entries => max (depth value + 1) (entriesDepth entries)

end

/-- The value has the shape, the keys and the atoms of the form. Its vectors and maps were made from the node
`first` on. -/
inductive Remade (first : NodeId) : Value → Value → Prop
  | atom {form : Value} (atom : form.IsConstantAtom) : Remade first form form
  | vector {label node : NodeId} {items values : List Value} (new : first ≤ node)
      (remade : List.Forall₂ (Remade first) items values) :
      Remade first (.seq label .vector items) (.seq node .vector values)
  | map {label node : NodeId} {entries values : List (MapKey × Value)} (new : first ≤ node)
      (keys : entries.map Prod.fst = values.map Prod.fst)
      (remade : List.Forall₂ (Remade first) (entries.map Prod.snd) (values.map Prod.snd)) :
      Remade first (.map label entries) (.map node values)

theorem depth_of_atom {form : Value} (atom : form.IsConstantAtom) : depth form = 0 := by
  cases form with
  | seq label kind items =>
      obtain ⟨rfl, rfl⟩ := atom
      rfl
  | map label entries => exact absurd atom id
  | _ => rfl

/-- Items fit where each of them fits, one level further down. -/
theorem itemsDepth_lt_iff {items : List Value} {level limit : Nat} (below : level < limit) :
    level + itemsDepth items < limit ↔ ∀ item ∈ items, level + 1 + depth item < limit := by
  induction items with
  | nil => simpa [itemsDepth] using below
  | cons item items ih =>
      rw [List.forall_mem_cons, ← ih, itemsDepth]
      omega

theorem entriesDepth_eq (entries : List (MapKey × Value)) :
    entriesDepth entries = itemsDepth (entries.map Prod.snd) := by
  induction entries with
  | nil => rfl
  | cons entry entries ih => rw [entriesDepth, List.map_cons, itemsDepth, ih]

theorem entriesDepth_lt_iff {entries : List (MapKey × Value)} {level limit : Nat} (below : level < limit) :
    level + entriesDepth entries < limit ↔
      ∀ entry ∈ entries, level + 1 + depth entry.2 < limit := by
  rw [entriesDepth_eq, itemsDepth_lt_iff below, List.forall_mem_map]

theorem depth_lt_itemsDepth {items : List Value} {item : Value} (mem : item ∈ items) :
    depth item < itemsDepth items := by
  have all := (itemsDepth_lt_iff (Nat.succ_pos (itemsDepth items))).1 (by omega) item mem
  omega

theorem depth_lt_entriesDepth {entries : List (MapKey × Value)} {entry : MapKey × Value}
    (mem : entry ∈ entries) : depth entry.2 < entriesDepth entries := by
  rw [entriesDepth_eq]
  exact depth_lt_itemsDepth (List.mem_map_of_mem mem)

end Form

/-- Nothing was made since but nodes and stamps. -/
structure Store.Grows (s t : Store) : Prop where
  scopes : t.scopes = s.scopes
  output : t.output = s.output
  nextNode : s.nextNode ≤ t.nextNode

namespace Store.Grows

theorem refl (s : Store) : s.Grows s :=
  ⟨rfl, rfl, Nat.le_refl _⟩

theorem trans {s t u : Store} (h : s.Grows t) (h' : t.Grows u) : s.Grows u :=
  ⟨h'.scopes.trans h.scopes, h'.output.trans h.output, Nat.le_trans h.nextNode h'.nextNode⟩

end Store.Grows

namespace Eval

variable {α β : Type} {s : Store} {limit : Nat}

/-- Given the room, the computation ends in a result with the property, and otherwise it is refused a level.
Only nodes and stamps are made. -/
structure Bounded (x : Eval α) (s : Store) (limit : Nat) (room : Prop) (property : α → Prop) : Prop where
  succeeds : room → ∃ a t, x s = .ok a t ∧ property a ∧ s.Grows t
  refused : ¬ room → ∃ t, x s = .error (.error (.depthExceeded limit)) t ∧ s.Grows t

theorem Bounded.of_ok {x : Eval α} {a : α} {t : Store} {room : Prop} {property : α → Prop} (granted : room)
    (ends : x s = .ok a t) (holds : property a) (grows : s.Grows t) :
    Bounded x s limit room property :=
  ⟨fun _ => ⟨a, t, ends, holds, grows⟩, fun denied => absurd granted denied⟩

/-- What follows needs no room of its own. -/
theorem Bounded.bind {x : Eval α} {f : α → Eval β} {room : Prop} {property : α → Prop}
    {property' : β → Prop} (first : Bounded x s limit room property)
    (rest : ∀ a t, property a → s.Grows t → ∃ b u, f a t = .ok b u ∧ property' b ∧ t.Grows u) :
    Bounded (x >>= f) s limit room property' where
  succeeds granted := by
    obtain ⟨a, t, ends, holds, grows⟩ := first.succeeds granted
    obtain ⟨b, u, ends', holds', grows'⟩ := rest a t holds grows
    exact ⟨b, u, (bind_of_ok ends).trans ends', holds', grows.trans grows'⟩
  refused denied := by
    obtain ⟨t, ends, grows⟩ := first.refused denied
    exact ⟨t, bind_of_error ends, grows⟩

/-- Of computations one after the other the first without room is refused, those before it have succeeded. -/
theorem Bounded.mapM {f : α → Eval β} {room : α → Prop} {related : α → β → Prop} {items : List α}
    (each : ∀ item ∈ items, ∀ t, s.Grows t → Bounded (f item) t limit (room item) (related item)) :
    Bounded (items.mapM f) s limit (∀ item ∈ items, room item) (List.Forall₂ related items) := by
  induction items generalizing s with
  | nil => exact .of_ok nofun rfl .nil (.refl s)
  | cons item items ih =>
      obtain ⟨here, others⟩ := List.forall_mem_cons.1 each
      rw [List.mapM_cons]
      by_cases granted : room item
      · obtain ⟨b, t, ends, holds, grows⟩ := (here s (.refl s)).succeeds granted
        have tail := ih fun item mem u later => others item mem u (grows.trans later)
        have whole : Bounded (items.mapM f >>= fun bs => pure (b :: bs)) t limit
            (∀ item ∈ items, room item) (List.Forall₂ related (item :: items)) :=
          tail.bind fun bs u rest _ => ⟨_, u, rfl, .cons holds rest, .refl u⟩
        constructor
        · intro all
          obtain ⟨bs, u, ends', holds', grows'⟩ := whole.succeeds (List.forall_mem_cons.1 all).2
          exact ⟨bs, u, (bind_of_ok ends).trans ends', holds', grows.trans grows'⟩
        · intro denied
          obtain ⟨u, ends', grows'⟩ :=
            whole.refused fun all => denied (List.forall_mem_cons.2 ⟨granted, all⟩)
          exact ⟨u, (bind_of_ok ends).trans ends', grows.trans grows'⟩
      · obtain ⟨t, ends, grows⟩ := (here s (.refl s)).refused granted
        exact ⟨fun all => absurd (List.forall_mem_cons.1 all).1 granted,
          fun _ => ⟨t, bind_of_error ends, grows⟩⟩

end Eval

section Evaluation

open Form

variable {host : Host} {ctx : Context} {scope : ScopeId} {fuel : Nat} {s : Store}

/-- A form that is no list takes one step, and its nodes are not passed through. -/
theorem loop_of_atom {form : Value} (atom : form.isList = false) (fuel : Nat) :
    Run.loop host (fuel + 1) ctx [] form scope =
      (Run.evaluatorAt host fuel).evalAtom ctx scope form := by
  have unvisited : Run.visit form [] = [] := by
    cases form with
    | seq node kind items => cases kind <;> first | rfl | cases atom
    | _ => rfl
  rw [Run.loop]
  dsimp only
  rw [Evaluator.resolve_of_atom _ _ _ atom, pure_bind]
  simp only [unvisited, ite_self, Evaluator.step_of_atom _ _ _ atom, bind_assoc, pure_bind, Run.stampAll,
    List.forM_eq_forM, List.forM_nil, bind_pure]

theorem grows_of_onlyStamps {x : Eval Unit} (stamps : x.OnlyStamps) (s : Store) :
    ∃ t, x s = .ok () t ∧ s.Grows t := by
  obtain ⟨made, stamped⟩ := stamps s
  exact ⟨_, stamped, rfl, rfl, Nat.le_refl _⟩

/-- The value of an atom that stands for itself. An empty list is passed through on the way to it, so that it
may be stamped. -/
theorem loop_of_constantAtom {form : Value} (atom : form.IsConstantAtom) (fuel : Nat) (s : Store) :
    ∃ t, Run.loop host (fuel + 2) ctx [] form scope s = .ok form t ∧ s.Grows t := by
  cases form with
  | seq node kind items =>
      obtain ⟨rfl, rfl⟩ := atom
      let visited := if ctx.annotate then [node, node] else []
      obtain ⟨t, stamped, grows⟩ := grows_of_onlyStamps
        (Renaming.onlyStamps_stampAll ctx visited (.seq node .list [])) s
      refine ⟨t, ?_, grows⟩
      have resolved : (Run.evaluatorAt host (fuel + 1)).resolve ctx scope (.seq node .list []) s =
          .ok (.seq node .list []) s := resolve_of_plain rfl
      rw [Run.loop]
      exact (bind_of_ok resolved).trans (bind_of_ok stamped)
  | symbol name => exact absurd atom id
  | map label entries => exact absurd atom id
  | _ =>
      rw [loop_of_atom rfl]
      exact ⟨s, rfl, .refl s⟩

/-- What takes so many levels is refused one if the evaluation itself is, and is otherwise up to its loop. -/
theorem bounded_evaluate {form : Value} {levels : Nat} {property : Value → Prop}
    (inside : ctx.depth < ctx.limit → Bounded (Run.loop host fuel ctx [] form scope) s ctx.limit
      (ctx.depth + levels < ctx.limit) property) :
    Bounded (evaluate host fuel ctx form scope) s ctx.limit (ctx.depth + levels < ctx.limit) property := by
  by_cases below : ctx.depth < ctx.limit
  · rw [evaluate_eq_loop below]
    exact inside below
  · have refused : evaluate host fuel ctx form scope s = .error (.error (.depthExceeded ctx.limit)) s := by
      rw [evaluate, Run.enterWith, if_pos (Nat.le_of_not_lt below)]
      rfl
    exact ⟨fun room => absurd room (by omega), fun _ => ⟨s, refused, .refl s⟩⟩

/-- What was made for a form may be recorded at it. -/
theorem exists_recorded (make : Eval Value) {value : Value} {t : Store} (made : make s = .ok value t)
    (grows : s.Grows t) (node : NodeId) (change : Value → Stamps → Stamps) :
    ∃ u, (do let value ← make
             ctx.stamp node (change value)
             return value) s = .ok value u ∧ s.Grows u := by
  obtain ⟨u, stamped, grows'⟩ := grows_of_onlyStamps (onlyStamps_stamp ctx node (change value)) t
  exact ⟨u, (bind_of_ok made).trans (bind_of_ok stamped), grows.trans grows'⟩

/-- By induction on the data. Its parts lie one level further down and are evaluated with one unit of fuel
less, in stores that have grown since. -/
theorem bounded_of_constant {form : Value} (constant : form.Constant) {first : NodeId} {fuel : Nat}
    (enough : form.depth + 1 < fuel) {ctx : Context} {s : Store} (new : first ≤ s.nextNode) :
    Bounded (evaluate host fuel ctx form scope) s ctx.limit (ctx.depth + form.depth < ctx.limit)
      (Remade first form) := by
  induction constant generalizing fuel ctx s with
  | @atom form atom =>
      obtain ⟨fuel, rfl⟩ : ∃ n, fuel = n + 2 := ⟨fuel - 2, by omega⟩
      refine bounded_evaluate fun below => ?_
      obtain ⟨t, ends, grows⟩ := loop_of_constantAtom atom fuel s
      exact .of_ok (by rw [depth_of_atom atom]; exact below) ends (.atom atom) grows
  | @vector label items parts ih =>
      obtain ⟨fuel, rfl⟩ : ∃ n, fuel = n + 1 := ⟨fuel - 1, by omega⟩
      refine bounded_evaluate fun below => ?_
      have items : Bounded ((Run.evaluatorAt host fuel).enterAll ctx scope items) s ctx.limit
          (∀ item ∈ items, ctx.depth + 1 + depth item < ctx.limit) (List.Forall₂ (Remade first) items) := by
        refine .mapM fun item mem t grows => ih item mem ?_ (Nat.le_trans new grows.nextNode)
        have := depth_lt_itemsDepth mem
        rw [depth] at enough
        omega
      rw [loop_of_atom rfl, depth, itemsDepth_lt_iff below]
      refine items.bind fun values t remade grows => ?_
      obtain ⟨u, made, grows'⟩ := exists_recorded (s := t) (Eval.newSeq .vector values) rfl
        ⟨rfl, rfl, Nat.le_succ _⟩ label fun value stamps => { stamps with evaluated := some value }
      exact ⟨_, u, made, .vector (Nat.le_trans new grows.nextNode) remade, grows'⟩
  | @map label entries parts ih =>
      obtain ⟨fuel, rfl⟩ : ∃ n, fuel = n + 1 := ⟨fuel - 1, by omega⟩
      refine bounded_evaluate fun below => ?_
      have entries : Bounded ((Run.evaluatorAt host fuel).enterEntries ctx scope entries) s ctx.limit
          (∀ entry ∈ entries, ctx.depth + 1 + depth entry.2 < ctx.limit)
          (List.Forall₂ (fun entry value => entry.1 = value.1 ∧ Remade first entry.2 value.2) entries) := by
        refine .mapM fun entry mem t grows => ?_
        refine (ih entry mem ?_ (Nat.le_trans new grows.nextNode)).bind fun value u remade _ =>
          ⟨(entry.1, value), u, rfl, ⟨rfl, remade⟩, .refl u⟩
        have := depth_lt_entriesDepth mem
        rw [depth] at enough
        omega
      rw [loop_of_atom rfl, depth, entriesDepth_lt_iff below]
      refine entries.bind fun values t remade grows => ?_
      obtain ⟨u, made, grows'⟩ := exists_recorded (s := t) (Eval.newMap values) rfl
        ⟨rfl, rfl, Nat.le_succ _⟩ label fun value stamps => { stamps with evaluated := some value }
      refine ⟨_, u, made, .map (Nat.le_trans new grows.nextNode) ?_ ?_, grows'⟩
      · rw [← List.forall₂_eq_eq_eq, List.forall₂_map_left_iff, List.forall₂_map_right_iff]
        exact remade.imp fun _ _ same => same.1
      · rw [List.forall₂_map_left_iff, List.forall₂_map_right_iff]
        exact remade.imp fun _ _ same => same.2

end Evaluation

section

open Form

/-- Constant data is its own value, up to what it takes: under a limit above its depth it evaluates to data of
its shape with its keys and atoms, and under any other limit it is refused a level. Scopes are left as they are
and nothing is printed, whether stamps are made or not. -/
theorem evaluates_of_constant (host : Host) (annotate : Bool) (limit : Nat) (scope : ScopeId) (s : Store)
    (form : Value) (constant : form.Constant) :
    (form.depth < limit → ∃ value t,
      Evaluates host (.within annotate limit) form scope s (.ok value) t ∧
        Remade s.nextNode form value ∧ t.scopes = s.scopes ∧ t.output = s.output) ∧
    (limit ≤ form.depth → ∃ t,
      Evaluates host (.within annotate limit) form scope s (.error (.depthExceeded limit)) t ∧
        t.scopes = s.scopes ∧ t.output = s.output) := by
  have bounded : Bounded (evaluate host (form.depth + 2) (.within annotate limit) form scope) s limit
      (0 + form.depth < limit) (Remade s.nextNode form) :=
    bounded_of_constant constant (Nat.lt_succ_self _) (Nat.le_refl _)
  rw [Nat.zero_add] at bounded
  constructor
  · intro enough
    obtain ⟨value, t, ends, remade, grows⟩ := bounded.succeeds enough
    exact ⟨value, t, ⟨_, attempt_of_ok ends⟩, remade, grows.scopes, grows.output⟩
  · intro tooLow
    obtain ⟨t, ends, grows⟩ := bounded.refused (Nat.not_lt.2 tooLow)
    exact ⟨t, ⟨_, attempt_of_error ends⟩, grows.scopes, grows.output⟩

/-- `[1 [] {:k [()]}]` lies three levels deep. -/
theorem evaluates_of_nested_data :
    let form : Value := .seq 0 .vector [.number 1, .seq 1 .vector [],
      .map 2 [(.keyword "k", .seq 3 .vector [.seq 4 .list []])]]
    let s : Store := ⟨#[⟨[], none⟩], 5, ∅, ""⟩
    form.Constant ∧
      (∃ value t, Evaluates Host.none (.within true 4) form 0 s (.ok value) t ∧ Remade 5 form value ∧
        t.scopes = s.scopes) ∧
      ∃ t, Evaluates Host.none (.within true 3) form 0 s (.error (.depthExceeded 3)) t ∧
        t.scopes = s.scopes := by
  intro form s
  have entry : (Form.map 2 [(.keyword "k", .seq 3 .vector [.seq 4 .list []])] : Value).Constant :=
    .map (List.forall_mem_singleton.2 (.vector (List.forall_mem_singleton.2 (.atom ⟨rfl, rfl⟩))))
  have constant : form.Constant :=
    .vector (List.forall_mem_cons.2 ⟨.atom trivial,
      List.forall_mem_cons.2 ⟨.vector nofun, List.forall_mem_singleton.2 entry⟩⟩)
  obtain ⟨value, t, ends, remade, scopes, _⟩ :=
    (evaluates_of_constant Host.none true 4 0 s form constant).1 (by decide)
  obtain ⟨u, refused, scopes', _⟩ :=
    (evaluates_of_constant Host.none true 3 0 s form constant).2 (by decide)
  exact ⟨constant, ⟨value, t, ends, remade, scopes⟩, u, refused, scopes'⟩

end

end AnnotatedLisp
