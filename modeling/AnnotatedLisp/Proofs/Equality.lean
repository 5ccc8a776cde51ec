import AnnotatedLisp.Proofs.Number.Comparison
import AnnotatedLisp.Proofs.World.Reached

/-!
Equality of values is a partial equivalence.

Two values are compared item by item and entry by entry, unless they are the same node, which is equal to
itself at once. The shortcut makes a difference only where some number in the node is not a number. It keeps
equality transitive because a node has one content: what has the label of a value is that value.
-/

namespace AnnotatedLisp

namespace Form

variable {ι : Type}

mutual

/-- Some number in the form is not a number. What is in a function is not looked at. -/
def hasNaN : Form ι → Bool
  | number value => value.isNaN
  | seq _ _ items => itemsHaveNaN items
  | map _ entries => entriesHaveNaN entries
  | _ => false

def itemsHaveNaN : List (Form ι) → Bool
  | [] => false
  | item :: items => hasNaN item || itemsHaveNaN items

def entriesHaveNaN : List (MapKey × Form ι) → Bool
  | [] => false
  | (_, value) :: entries => hasNaN value || entriesHaveNaN entries

end

/-- The atoms that are equal to nothing but themselves. -/
def isPlain : Form ι → Bool
  | nil | bool _ | string _ | keyword _ | symbol _ => true
  | _ => false

end Form

namespace Value

mutual

/-- Equality by contents all the way down, with no regard to what is the same node. Only functions are
compared as nodes. -/
def alike : Value → Value → Bool
  | .nil, .nil => true
  | .bool a, .bool b => a == b
  | .number a, .number b => a == b
  | .string a, .string b => a == b
  | .keyword a, .keyword b => a == b
  | .symbol a, .symbol b => a == b
  | .seq _ _ xs, .seq _ _ ys => itemsAlike xs ys
  | .map _ xs, .map _ ys => entriesAlike xs ys
  | .native a, .native b => a.name == b.name
  | .fn m _ _ _ _, .fn n _ _ _ _ => m == n
  | _, _ => false

def itemsAlike : List Value → List Value → Bool
  | [], [] => true
  | x :: xs, y :: ys => alike x y && itemsAlike xs ys
  | _, _ => false

def entriesAlike : List (MapKey × Value) → List (MapKey × Value) → Bool
  | [], [] => true
  | (j, x) :: xs, (k, y) :: ys => j == k && alike x y && entriesAlike xs ys
  | _, _ => false

end

/-- Equality of the items of two sequences, in order. -/
abbrev itemsEqual (xs ys : List Value) : Bool :=
  Form.equalItems (· == ·) xs ys

abbrev entriesEqual (xs ys : List (MapKey × Value)) : Bool :=
  Form.equalEntries (· == ·) xs ys

/-- Every list, vector, map and function in the value is the one that the heap has at its node. -/
def In (heap : NodeId → Value) (value : Value) : Prop :=
  value.AllParts fun form => ∀ node ∈ form.identity?, heap node = form

section Inversion

variable {label : NodeId} {form : Value}

theorem beq_seq_iff {kind : SeqKind} {items : List Value} :
    (Form.seq label kind items == form) = true ↔ ∃ label' kind' items',
      form = .seq label' kind' items' ∧ (label = label' ∨ itemsEqual items items' = true) := by
  change Form.equal _ _ _ = true ↔ _
  cases form <;> simp [Form.equal, and_assoc]

theorem beq_map_iff {entries : List (MapKey × Value)} :
    (Form.map label entries == form) = true ↔ ∃ label' entries',
      form = .map label' entries' ∧ (label = label' ∨ entriesEqual entries entries' = true) := by
  change Form.equal _ _ _ = true ↔ _
  cases form <;> simp [Form.equal, and_assoc]

theorem beq_fn_iff {params body : Value} {scope : ScopeId} {isMacro : Bool} :
    (Form.fn label params body scope isMacro == form) = true ↔ ∃ params' body' scope' isMacro',
      form = .fn label params' body' scope' isMacro' := by
  change Form.equal _ _ _ = true ↔ _
  cases form with
  | fn => simpa [Form.equal] using eq_comm
  | _ => simp [Form.equal]

theorem beq_number_iff {x : Float} :
    ((Form.number x : Value) == form) = true ↔ ∃ y, form = .number y ∧ (x == y) = true := by
  change Form.equal _ _ _ = true ↔ _
  cases form <;> simp [Form.equal]

theorem beq_native_iff {operation : Native} :
    ((Form.native operation : Value) == form) = true ↔
      ∃ operation', form = .native operation' ∧ operation.name = operation'.name := by
  change Form.equal _ _ _ = true ↔ _
  cases form <;> simp [Form.equal]

theorem beq_plain_iff {atom : Value} (plain : atom.isPlain = true) :
    (atom == form) = true ↔ atom = form := by
  change Form.equal _ _ _ = true ↔ _
  cases atom <;> cases plain <;> cases form <;> simp [Form.equal]

end Inversion

section Symmetry

mutual

theorem beq_symm : ∀ {a b : Value}, (a == b) = true → (b == a) = true
  | .seq m _ xs, b, h => by
      obtain ⟨n, _, ys, rfl, agree⟩ := beq_seq_iff.1 h
      exact beq_seq_iff.2 ⟨_, _, _, rfl, agree.imp Eq.symm itemsEqual_symm⟩
  | .map m xs, b, h => by
      obtain ⟨n, ys, rfl, agree⟩ := beq_map_iff.1 h
      exact beq_map_iff.2 ⟨_, _, rfl, agree.imp Eq.symm entriesEqual_symm⟩
  | .fn _ _ _ _ _, b, h => by
      obtain ⟨_, _, _, _, rfl⟩ := beq_fn_iff.1 h
      exact beq_fn_iff.2 ⟨_, _, _, _, rfl⟩
  | .number x, b, h => by
      obtain ⟨y, rfl, agree⟩ := beq_number_iff.1 h
      exact beq_number_iff.2 ⟨_, rfl, Number.beq_symm agree⟩
  | .native f, b, h => by
      obtain ⟨g, rfl, agree⟩ := beq_native_iff.1 h
      exact beq_native_iff.2 ⟨_, rfl, agree.symm⟩
  | .nil, b, h | .bool _, b, h | .string _, b, h | .keyword _, b, h | .symbol _, b, h => by
      obtain rfl := (beq_plain_iff rfl).1 h
      exact h

theorem itemsEqual_symm : ∀ {xs ys : List Value}, itemsEqual xs ys = true → itemsEqual ys xs = true
  | [], [], h => h
  | x :: xs, y :: ys, h => by
      rw [itemsEqual, Form.equalItems, Bool.and_eq_true] at h ⊢
      exact h.imp beq_symm itemsEqual_symm

theorem entriesEqual_symm : ∀ {xs ys : List (MapKey × Value)}, entriesEqual xs ys = true →
    entriesEqual ys xs = true
  | [], [], h => h
  | (j, x) :: xs, (k, y) :: ys, h => by
      rw [entriesEqual, Form.equalEntries, Bool.and_eq_true, Bool.and_eq_true, beq_iff_eq] at h ⊢
      exact h.imp (And.imp Eq.symm beq_symm) entriesEqual_symm

end

end Symmetry

section Heap

variable {heap : NodeId → Value}

theorem In.part {value part : Value} (inside : value.In heap) (mem : part ∈ value.parts) : part.In heap :=
  (Form.allParts_iff.1 inside).2 part mem

/-- Values of one heap with the same label are the same. -/
theorem In.eq_of_identity {a b : Value} (first : a.In heap) (second : b.In heap) {node : NodeId}
    (labelled : a.identity? = some node) (labelled' : b.identity? = some node) : a = b :=
  ((Form.allParts_iff.1 first).1 node labelled).symm.trans ((Form.allParts_iff.1 second).1 node labelled')

theorem In.items {label : NodeId} {kind : SeqKind} {items : List Value}
    (inside : In heap (.seq label kind items)) : ∀ item ∈ items, item.In heap :=
  fun _ mem => inside.part mem

theorem In.entries {label : NodeId} {entries : List (MapKey × Value)}
    (inside : In heap (.map label entries)) : ∀ entry ∈ entries, entry.2.In heap :=
  fun _ mem => inside.part (List.mem_map_of_mem mem)

mutual

/-- Where one of two comparisons takes the shortcut it says that two of the values are the same, and where
none does the parts are compared as well. -/
theorem beq_trans : ∀ {a b c : Value}, a.In heap → b.In heap → c.In heap → (a == b) = true →
    (b == c) = true → (a == c) = true
  | .seq m _ xs, b, c, inA, inB, inC, h, h' => by
      obtain ⟨n, _, ys, rfl, agree⟩ := beq_seq_iff.1 h
      obtain ⟨o, _, zs, rfl, agree'⟩ := beq_seq_iff.1 h'
      obtain rfl | first := agree
      · cases inA.eq_of_identity inB rfl rfl
        exact h'
      · obtain rfl | second := agree'
        · cases inB.eq_of_identity inC rfl rfl
          exact h
        · have items := itemsEqual_trans inA.items inB.items inC.items first second
          exact beq_seq_iff.2 ⟨_, _, _, rfl, .inr items⟩
  | .map m xs, b, c, inA, inB, inC, h, h' => by
      obtain ⟨n, ys, rfl, agree⟩ := beq_map_iff.1 h
      obtain ⟨o, zs, rfl, agree'⟩ := beq_map_iff.1 h'
      obtain rfl | first := agree
      · cases inA.eq_of_identity inB rfl rfl
        exact h'
      · obtain rfl | second := agree'
        · cases inB.eq_of_identity inC rfl rfl
          exact h
        · have entries := entriesEqual_trans inA.entries inB.entries inC.entries first second
          exact beq_map_iff.2 ⟨_, _, rfl, .inr entries⟩
  | .fn _ _ _ _ _, b, c, _, _, _, h, h' => by
      obtain ⟨_, _, _, _, rfl⟩ := beq_fn_iff.1 h
      obtain ⟨_, _, _, _, rfl⟩ := beq_fn_iff.1 h'
      exact beq_fn_iff.2 ⟨_, _, _, _, rfl⟩
  | .number x, b, c, _, _, _, h, h' => by
      obtain ⟨y, rfl, agree⟩ := beq_number_iff.1 h
      obtain ⟨z, rfl, agree'⟩ := beq_number_iff.1 h'
      exact beq_number_iff.2 ⟨_, rfl, Number.beq_trans agree agree'⟩
  | .native f, b, c, _, _, _, h, h' => by
      obtain ⟨g, rfl, agree⟩ := beq_native_iff.1 h
      obtain ⟨k, rfl, agree'⟩ := beq_native_iff.1 h'
      exact beq_native_iff.2 ⟨_, rfl, agree.trans agree'⟩
  | .nil, b, c, _, _, _, h, h' | .bool _, b, c, _, _, _, h, h' | .string _, b, c, _, _, _, h, h'
  | .keyword _, b, c, _, _, _, h, h' | .symbol _, b, c, _, _, _, h, h' => by
      obtain rfl := (beq_plain_iff rfl).1 h
      exact h'

theorem itemsEqual_trans : ∀ {xs ys zs : List Value}, (∀ x ∈ xs, x.In heap) → (∀ y ∈ ys, y.In heap) →
    (∀ z ∈ zs, z.In heap) → itemsEqual xs ys = true → itemsEqual ys zs = true → itemsEqual xs zs = true
  | [], [], [], _, _, _, _, _ => rfl
  | x :: xs, y :: ys, z :: zs, inX, inY, inZ, h, h' => by
      rw [itemsEqual, Form.equalItems, Bool.and_eq_true] at h h' ⊢
      rw [List.forall_mem_cons] at inX inY inZ
      exact ⟨beq_trans inX.1 inY.1 inZ.1 h.1 h'.1, itemsEqual_trans inX.2 inY.2 inZ.2 h.2 h'.2⟩

theorem entriesEqual_trans : ∀ {xs ys zs : List (MapKey × Value)}, (∀ x ∈ xs, x.2.In heap) →
    (∀ y ∈ ys, y.2.In heap) → (∀ z ∈ zs, z.2.In heap) → entriesEqual xs ys = true →
    entriesEqual ys zs = true → entriesEqual xs zs = true
  | [], [], [], _, _, _, _, _ => rfl
  | (j, x) :: xs, (k, y) :: ys, (l, z) :: zs, inX, inY, inZ, h, h' => by
      rw [entriesEqual, Form.equalEntries, Bool.and_eq_true, Bool.and_eq_true, beq_iff_eq] at h h' ⊢
      rw [List.forall_mem_cons] at inX inY inZ
      exact ⟨⟨h.1.1.trans h'.1.1, beq_trans inX.1 inY.1 inZ.1 h.1.2 h'.1.2⟩,
        entriesEqual_trans inX.2 inY.2 inZ.2 h.2 h'.2⟩

end

end Heap

section Contents

mutual

theorem alike_self : ∀ {value : Value}, value.hasNaN = false → alike value value = true
  | .seq _ _ items, h => by
      rw [Form.hasNaN] at h
      rw [alike]
      exact itemsAlike_self h
  | .map _ entries, h => by
      rw [Form.hasNaN] at h
      rw [alike]
      exact entriesAlike_self h
  | .number x, h => Number.beq_self_of_not_isNaN h
  | .nil, _ | .bool _, _ | .string _, _ | .keyword _, _ | .symbol _, _ | .native _, _
  | .fn _ _ _ _ _, _ => by simp [alike]

theorem itemsAlike_self : ∀ {items : List Value}, Form.itemsHaveNaN items = false →
    itemsAlike items items = true
  | [], _ => rfl
  | item :: items, h => by
      rw [Form.itemsHaveNaN, Bool.or_eq_false_iff] at h
      rw [itemsAlike, alike_self h.1, itemsAlike_self h.2, Bool.and_self]

theorem entriesAlike_self : ∀ {entries : List (MapKey × Value)}, Form.entriesHaveNaN entries = false →
    entriesAlike entries entries = true
  | [], _ => rfl
  | (key, value) :: entries, h => by
      rw [Form.entriesHaveNaN, Bool.or_eq_false_iff] at h
      rw [entriesAlike, alike_self h.1, entriesAlike_self h.2, beq_self_eq_true]
      rfl

end

variable {heap : NodeId → Value}

mutual

/-- The shortcuts do not change the answer. -/
theorem beq_eq_alike : ∀ {a b : Value}, a.In heap → b.In heap → a.hasNaN = false →
    (a == b) = alike a b
  | .seq m kind xs, b, inA, inB, h => by
      cases b with
      | seq n kind' ys =>
          change (m == n || itemsEqual xs ys) = itemsAlike xs ys
          rw [Form.hasNaN] at h
          by_cases same : m = n
          · subst same
            cases inA.eq_of_identity inB rfl rfl
            rw [beq_self_eq_true, Bool.true_or, itemsAlike_self h]
          · rw [beq_false_of_ne same, Bool.false_or, itemsEqual_eq_alike inA.items inB.items h]
      | _ => rfl
  | .map m xs, b, inA, inB, h => by
      cases b with
      | map n ys =>
          change (m == n || entriesEqual xs ys) = entriesAlike xs ys
          rw [Form.hasNaN] at h
          by_cases same : m = n
          · subst same
            cases inA.eq_of_identity inB rfl rfl
            rw [beq_self_eq_true, Bool.true_or, entriesAlike_self h]
          · rw [beq_false_of_ne same, Bool.false_or, entriesEqual_eq_alike inA.entries inB.entries h]
      | _ => rfl
  | .nil, b, _, _, _ | .bool _, b, _, _, _ | .number _, b, _, _, _ | .string _, b, _, _, _
  | .keyword _, b, _, _, _ | .symbol _, b, _, _, _ | .native _, b, _, _, _
  | .fn _ _ _ _ _, b, _, _, _ => by cases b <;> rfl

theorem itemsEqual_eq_alike : ∀ {xs ys : List Value}, (∀ x ∈ xs, x.In heap) → (∀ y ∈ ys, y.In heap) →
    Form.itemsHaveNaN xs = false → itemsEqual xs ys = itemsAlike xs ys
  | [], [], _, _, _ | [], _ :: _, _, _, _ | _ :: _, [], _, _, _ => rfl
  | x :: xs, y :: ys, inX, inY, h => by
      rw [Form.itemsHaveNaN, Bool.or_eq_false_iff] at h
      rw [List.forall_mem_cons] at inX inY
      change ((x == y) && itemsEqual xs ys) = (alike x y && itemsAlike xs ys)
      rw [beq_eq_alike inX.1 inY.1 h.1, itemsEqual_eq_alike inX.2 inY.2 h.2]

theorem entriesEqual_eq_alike : ∀ {xs ys : List (MapKey × Value)}, (∀ x ∈ xs, x.2.In heap) →
    (∀ y ∈ ys, y.2.In heap) → Form.entriesHaveNaN xs = false → entriesEqual xs ys = entriesAlike xs ys
  | [], [], _, _, _ | [], _ :: _, _, _, _ | _ :: _, [], _, _, _ => rfl
  | (j, x) :: xs, (k, y) :: ys, inX, inY, h => by
      rw [Form.entriesHaveNaN, Bool.or_eq_false_iff] at h
      rw [List.forall_mem_cons] at inX inY
      change (j == k && (x == y) && entriesEqual xs ys) = (j == k && alike x y && entriesAlike xs ys)
      rw [beq_eq_alike inX.1 inY.1 h.1, entriesEqual_eq_alike inX.2 inY.2 h.2]

end

end Contents

theorem beq_self {value : Value} (numbers : value.hasNaN = false) : (value == value) = true := by
  cases value with
  | seq => exact beq_seq_iff.2 ⟨_, _, _, rfl, .inl rfl⟩
  | map => exact beq_map_iff.2 ⟨_, _, rfl, .inl rfl⟩
  | fn => exact beq_fn_iff.2 ⟨_, _, _, _, rfl⟩
  | number x => exact Number.beq_self_of_not_isNaN numbers
  | native f => exact beq_native_iff.2 ⟨_, rfl, rfl⟩
  | _ => exact (beq_plain_iff rfl).2 rfl

section Neighbours

/-- Where equality is transitive, it holds between every two if it holds between every two neighbours. -/
theorem chain_iff_pairwise {α : Type} {r : α → α → Bool} {p : α → Prop}
    (transitive : ∀ {a b c}, p a → p b → p c → r a b = true → r b c = true → r a c = true) {a : α}
    {rest : List α} (first : p a) (others : ∀ b ∈ rest, p b) :
    Operation.chain r a rest = true ↔ (a :: rest).Pairwise fun a b => r a b = true := by
  induction rest generalizing a with
  | nil => simp [Operation.chain]
  | cons b rest ih =>
      obtain ⟨second, others⟩ := List.forall_mem_cons.1 others
      rw [Operation.chain, Bool.and_eq_true, ih second others]
      constructor
      · rintro ⟨agree, pairwise⟩
        have onwards := (List.pairwise_cons.1 pairwise).1
        refine List.pairwise_cons.2 ⟨List.forall_mem_cons.2 ⟨agree, fun c mem => ?_⟩, pairwise⟩
        exact transitive first second (others c mem) agree (onwards c mem)
      · intro pairwise
        obtain ⟨onwards, pairwise⟩ := List.pairwise_cons.1 pairwise
        exact ⟨onwards b List.mem_cons_self, pairwise⟩

theorem pairwise_iff_distinct {α : Type} {r : α → α → Prop} (symmetric : ∀ {a b}, r a b → r b a)
    {items : List α} : items.Pairwise r ↔
      ∀ (i j : Nat) (a b : α), i ≠ j → items[i]? = some a → items[j]? = some b → r a b := by
  rw [List.pairwise_iff_getElem]
  constructor
  · intro pairwise i j a b apart first second
    obtain ⟨small, rfl⟩ := List.getElem?_eq_some_iff.1 first
    obtain ⟨small', rfl⟩ := List.getElem?_eq_some_iff.1 second
    obtain less | less := Nat.lt_or_gt_of_ne apart
    · exact pairwise i j small small' less
    · exact symmetric (pairwise j i small' small less)
  · intro distinct i j small small' less
    exact distinct i j _ _ (Nat.ne_of_lt less) (List.getElem?_eq_getElem small)
      (List.getElem?_eq_getElem small')

theorem equal_apply (a : Value) (rest : List Value) (s : Store) :
    CoreOp.equal.operation.call (a :: rest) s = .ok (.bool (Operation.chain (· == ·) a rest)) s := by
  have enough : (Arity.atLeast 1).check (a :: rest).length = .ok () := by
    simp [Arity.check, Arity.accepts]
  have converted : CoreOp.equal.operation.signature.convert (a :: rest) = .ok (a, rest) := by
    change ((Arity.atLeast 1).check (a :: rest).length >>= fun _ => Except.ok (a, rest)) = _
    rw [enough]
    rfl
  change (Eval.ofExcept ((Arity.atLeast 1).check (a :: rest).length) >>= fun _ =>
    Eval.ofExcept (CoreOp.equal.operation.signature.convert (a :: rest)) >>= _) s = _
  rw [enough, converted]
  rfl

end Neighbours

end Value

namespace World

theorem Knows.heap {w : World} {value : Value} (known : w.Knows value) : value.In w.value :=
  Form.AllParts.mono (fun _ made node mem => (made.node node mem).2) value known

end World

/-- All values that can be held at one time are of one heap. -/
theorem Store.Reached.exists_heap {s : Store} {held : List Value} (reached : s.Reached held) :
    ∃ heap : NodeId → Value, ∀ value ∈ held, value.In heap := by
  obtain ⟨w, _, known⟩ := World.exists_describes reached
  exact ⟨w.value, fun value mem => (known value mem).heap⟩

/-- Equality is symmetric, transitive, and reflexive as far as numbers are, where it is equality by contents.
The operation `=`, which compares neighbours, tells whether every two of its arguments are equal. -/
theorem equality_of_values (heap : NodeId → Value) :
    (∀ a b : Value, (a == b) = true → (b == a) = true) ∧
    (∀ a b c : Value, a.In heap → b.In heap → c.In heap → (a == b) = true → (b == c) = true →
      (a == c) = true) ∧
    (∀ a : Value, a.hasNaN = false → (a == a) = true) ∧
    (∀ a b : Value, a.In heap → b.In heap → a.hasNaN = false → b.hasNaN = false →
      (a == b) = a.alike b) ∧
    ∀ args : List Value, args ≠ [] → (∀ arg ∈ args, arg.In heap) → ∀ s : Store, ∃ answer,
      CoreOp.equal.operation.call args s = .ok (.bool answer) s ∧
        (answer = true ↔ ∀ (i j : Nat) (a b : Value), i ≠ j → args[i]? = some a → args[j]? = some b →
          (a == b) = true) := by
  refine ⟨fun _ _ => Value.beq_symm, fun _ _ _ => Value.beq_trans, fun _ => Value.beq_self,
    fun _ _ inA inB numbers _ => Value.beq_eq_alike inA inB numbers, ?_⟩
  intro args given inside s
  obtain ⟨a, rest, rfl⟩ := List.exists_cons_of_ne_nil given
  obtain ⟨first, others⟩ := List.forall_mem_cons.1 inside
  refine ⟨_, Value.equal_apply a rest s, ?_⟩
  have neighbours := Value.chain_iff_pairwise (r := fun a b : Value => a == b) Value.beq_trans first others
  rw [neighbours, Value.pairwise_iff_distinct Value.beq_symm]

/-- Two lists and a vector of one item. -/
theorem equality_of_sequences :
    let heap : NodeId → Value := fun node => .seq node (if node = 1 then .vector else .list) [.bool true]
    ((∀ node, (heap node).In heap) ∧ (heap 0).hasNaN = false ∧ (heap 0 == heap 1) = true ∧
      (heap 1 == heap 2) = true) ∧
    (heap 1 == heap 0) = true ∧ (heap 0 == heap 2) = true ∧ (heap 0 == heap 0) = true ∧
      (heap 0 == heap 1) = (heap 0).alike (heap 1) ∧
      ∃ answer, CoreOp.equal.operation.call [heap 0, heap 1, heap 2] .empty = .ok (.bool answer) .empty ∧
        (answer = true ↔ ∀ (i j : Nat) (a b : Value), i ≠ j → [heap 0, heap 1, heap 2][i]? = some a →
          [heap 0, heap 1, heap 2][j]? = some b → (a == b) = true) := by
  intro heap
  have inside (node : NodeId) : (heap node).In heap :=
    Form.allParts_iff.2 ⟨by rintro _ ⟨⟩; rfl, by simp [heap, Form.parts, Form.AllParts, Form.identity?]⟩
  obtain ⟨symmetric, transitive, reflexive, contents, told⟩ := equality_of_values heap
  refine ⟨⟨inside, rfl, rfl, rfl⟩, symmetric _ _ rfl,
    transitive _ _ _ (inside 0) (inside 1) (inside 2) rfl rfl, reflexive _ rfl,
    contents _ _ (inside 0) (inside 1) rfl rfl, told _ (by simp) ?_ .empty⟩
  simp [inside]

end AnnotatedLisp
