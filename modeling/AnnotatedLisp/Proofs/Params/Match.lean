import AnnotatedLisp.Store.Binding

/-!
What parameters take.

This is the specification of how values are given names. It says when a parameter takes a value and which
names it gives to which parts, and otherwise which error tells the first place, from the left, where it does
not. A list made of the remaining items is a new node, so both say how the nodes are counted on.

Whether the number of items is right is told before any of them is looked at.
-/

namespace AnnotatedLisp

namespace Params

/-- No parameter stands for the remaining items. -/
def Plain (params : List Value) : Prop :=
  ∀ param ∈ params, param ≠ .symbol restMarker

/-- The parameters can take so many items. -/
inductive Fits : List Value → Nat → Prop
  | all {params : List Value} (plain : Plain params) : Fits params params.length
  | rest {fixed : List Value} {last : Value} {got : Nat} (plain : Plain fixed)
      (enough : fixed.length ≤ got) : Fits (fixed ++ [.symbol restMarker, last]) got

/-- The parameters cannot take so many items, or no items at all. -/
inductive Misfits : List Value → Nat → Error → Prop
  | all {params : List Value} {got : Nat} (plain : Plain params) (other : got ≠ params.length) :
      Misfits params got (.arityMismatch (.exact params.length) got)
  | rest {fixed : List Value} {last : Value} {got : Nat} (plain : Plain fixed)
      (few : got < fixed.length) :
      Misfits (fixed ++ [.symbol restMarker, last]) got (.arityMismatch (.atLeast fixed.length) got)
  | marker {fixed after : List Value} {got : Nat} (plain : Plain fixed) (other : after.length ≠ 1) :
      Misfits (fixed ++ .symbol restMarker :: after) got
        (.invalidForm "& must be followed by exactly one parameter")

mutual

/-- The parameter takes the value and gives these names, from left to right, to parts of it. -/
inductive Takes : NodeId → Value → Value → List (String × Value) → NodeId → Prop
  | symbol {n : NodeId} {name : String} {value : Value} :
      Takes n (.symbol name) value [(name, value)] n
  | seq {n n' label : NodeId} {kind : SeqKind} {params items : List Value} {value : Value}
      {named : List (String × Value)} (elements : value.elements? = some items)
      (each : TakesItems n params items named n') : Takes n (.seq label kind params) value named n'

/-- The parameters take the items one by one, and the last one takes the list of all that remain if it
stands behind the marker. -/
inductive TakesItems : NodeId → List Value → List Value → List (String × Value) → NodeId → Prop
  | nil {n : NodeId} : TakesItems n [] [] [] n
  | cons {n n' n'' : NodeId} {param item : Value} {params items : List Value}
      {named named' : List (String × Value)} (plain : param ≠ .symbol restMarker)
      (first : Takes n param item named n') (others : TakesItems n' params items named' n'') :
      TakesItems n (param :: params) (item :: items) (named ++ named') n''
  | rest {n n' : NodeId} {last : Value} {items : List Value} {named : List (String × Value)}
      (remaining : Takes (n + 1) last (.seq n .list items) named n') :
      TakesItems n [.symbol restMarker, last] items named n'

end

mutual

/-- The parameter does not take the value, with the error for the first place where it does not and the
names that are given before that. -/
inductive Refuses : NodeId → Value → Value → List (String × Value) → NodeId → Error → Prop
  | param {n : NodeId} {param value : Value} (noSymbol : ∀ name, param ≠ .symbol name)
      (noSeq : param.items? = none) :
      Refuses n param value [] n
        (.invalidForm ("parameter must be a symbol, list or vector, got " ++ param.text))
  | value {n label : NodeId} {kind : SeqKind} {params : List Value} {value : Value}
      (none : value.elements? = none) :
      Refuses n (.seq label kind params) value [] n
        (.invalidForm ("cannot destructure " ++ value.kindName ++ " " ++ value.text ++ " with " ++
          (Form.seq label kind params).text))
  | count {n label : NodeId} {kind : SeqKind} {params items : List Value} {value : Value}
      {error : Error} (elements : value.elements? = some items)
      (misfits : Misfits params items.length error) : Refuses n (.seq label kind params) value [] n error
  | seq {n n' label : NodeId} {kind : SeqKind} {params items : List Value} {value : Value}
      {named : List (String × Value)} {error : Error} (elements : value.elements? = some items)
      (fits : Fits params items.length) (one : RefusesItems n params items named n' error) :
      Refuses n (.seq label kind params) value named n' error

/-- A parameter does not take its item, and those before it take theirs. -/
inductive RefusesItems :
    NodeId → List Value → List Value → List (String × Value) → NodeId → Error → Prop
  | here {n n' : NodeId} {param item : Value} {params items : List Value}
      {named : List (String × Value)} {error : Error} (plain : param ≠ .symbol restMarker)
      (first : Refuses n param item named n' error) :
      RefusesItems n (param :: params) (item :: items) named n' error
  | later {n n' n'' : NodeId} {param item : Value} {params items : List Value}
      {named named' : List (String × Value)} {error : Error} (plain : param ≠ .symbol restMarker)
      (first : Takes n param item named n') (others : RefusesItems n' params items named' n'' error) :
      RefusesItems n (param :: params) (item :: items) (named ++ named') n'' error
  | rest {n n' : NodeId} {last : Value} {items : List Value} {named : List (String × Value)}
      {error : Error} (remaining : Refuses (n + 1) last (.seq n .list items) named n' error) :
      RefusesItems n [.symbol restMarker, last] items named n' error

end

/-- The parameters of a call take its arguments. A bare symbol takes the list of them. -/
inductive TakesAll : NodeId → Value → List Value → List (String × Value) → NodeId → Prop
  | symbol {n : NodeId} {name : String} {args : List Value} :
      TakesAll n (.symbol name) args [(name, .seq n .list args)] (n + 1)
  | seq {n n' label : NodeId} {kind : SeqKind} {params args : List Value}
      {named : List (String × Value)} (each : TakesItems n params args named n') :
      TakesAll n (.seq label kind params) args named n'

/-- The parameters of a call do not take its arguments. -/
inductive RefusesAll : NodeId → Value → List Value → List (String × Value) → NodeId → Error → Prop
  | params {n : NodeId} {params : Value} {args : List Value} (noSymbol : ∀ name, params ≠ .symbol name)
      (noSeq : params.items? = none) :
      RefusesAll n params args [] n
        (.invalidForm ("parameter spec must be a symbol, list or vector, got " ++ params.text))
  | count {n label : NodeId} {kind : SeqKind} {params args : List Value} {error : Error}
      (misfits : Misfits params args.length error) :
      RefusesAll n (.seq label kind params) args [] n error
  | seq {n n' label : NodeId} {kind : SeqKind} {params args : List Value}
      {named : List (String × Value)} {error : Error} (fits : Fits params args.length)
      (one : RefusesItems n params args named n' error) :
      RefusesAll n (.seq label kind params) args named n' error

mutual

/-- The names in a parameter from left to right, of which the marker is none. -/
def symbols : Value → List String
  | .symbol name => [name]
  | .seq _ _ params => itemsSymbols params
  | _ => []

def itemsSymbols : List Value → List String
  | [] => []
  | param :: params =>
    if param.isSymbol restMarker then
      match params with
      | [] => []
      | last :: _ => symbols last
    else symbols param ++ itemsSymbols params

end

section Counts

variable {params fixed after items : List Value} {param item : Value} {got : Nat}

theorem plain_or_marked (params : List Value) :
    Plain params ∨ ∃ fixed after, Plain fixed ∧ params = fixed ++ .symbol restMarker :: after := by
  induction params with
  | nil => exact .inl nofun
  | cons param params ih =>
      by_cases marker : param = .symbol restMarker
      · exact .inr ⟨[], params, nofun, marker ▸ rfl⟩
      · obtain plain | ⟨fixed, after, plain, rfl⟩ := ih
        · exact .inl (List.forall_mem_cons.2 ⟨marker, plain⟩)
        · exact .inr ⟨param :: fixed, after, List.forall_mem_cons.2 ⟨marker, plain⟩, rfl⟩

theorem fits_or_misfits (params : List Value) (got : Nat) :
    Fits params got ∨ ∃ error, Misfits params got error := by
  obtain plain | ⟨fixed, after, plain, rfl⟩ := plain_or_marked params
  · by_cases same : got = params.length
    · exact .inl (same ▸ .all plain)
    · exact .inr ⟨_, .all plain same⟩
  · by_cases one : after.length = 1
    · obtain ⟨last, rfl⟩ := List.length_eq_one_iff.1 one
      by_cases enough : fixed.length ≤ got
      · exact .inl (.rest plain enough)
      · exact .inr ⟨_, .rest plain (Nat.lt_of_not_le enough)⟩
    · exact .inr ⟨_, .marker plain one⟩

theorem isSymbol_of_plain (plain : Plain params) :
    ∀ param ∈ params, (!param.isSymbol restMarker) = true := by
  intro param mem
  simpa using mt Form.isSymbol_iff.1 (plain param mem)

theorem arity?_of_plain (plain : Plain params) : arity? params = some (.exact params.length) := by
  have taken := @List.takeWhile_append_of_pos _ _ _ [] (isSymbol_of_plain plain)
  have dropped := @List.dropWhile_append_of_pos _ _ _ [] (isSymbol_of_plain plain)
  rw [List.takeWhile_nil, List.append_nil] at taken
  rw [List.dropWhile_nil, List.append_nil] at dropped
  unfold arity?
  rw [taken, dropped]

theorem arity?_of_marked (plain : Plain fixed) (after : List Value) :
    arity? (fixed ++ .symbol restMarker :: after) =
      match after with
      | [_] => some (.atLeast fixed.length)
      | _ => none := by
  have marker : (!(Form.symbol restMarker : Value).isSymbol restMarker) = false := rfl
  unfold arity?
  rw [List.takeWhile_append_of_pos (isSymbol_of_plain plain),
    List.dropWhile_append_of_pos (isSymbol_of_plain plain), List.takeWhile_cons_of_neg (by simp [marker]),
    List.dropWhile_cons_of_neg (by simp [marker]), List.append_nil]
  rcases after with _ | ⟨last, _ | ⟨other, more⟩⟩ <;> rfl

theorem check_of_fits (h : Fits params got) : check params got = .ok () := by
  unfold check
  cases h with
  | all plain => simp [arity?_of_plain plain, Arity.check, Arity.accepts]
  | rest plain enough => simp [arity?_of_marked plain, Arity.check, Arity.accepts, enough]

theorem check_of_misfits {error : Error} (h : Misfits params got error) :
    check params got = .error error := by
  unfold check
  cases h with
  | all plain other => simp [arity?_of_plain plain, Arity.check, Arity.accepts, other]
  | rest plain few =>
      simp [arity?_of_marked plain, Arity.check, Arity.accepts, Nat.not_le.2 few]
  | marker plain other =>
      rw [arity?_of_marked plain]
      split
      next one =>
        split at one
        · exact absurd rfl other
        · cases one
      · rfl

theorem plain_cons : Plain (param :: params) ↔ param ≠ .symbol restMarker ∧ Plain params :=
  List.forall_mem_cons

/-- Parameters that fit begin with the marker and the last one, or with one that takes an item. -/
theorem Fits.of_cons (h : Fits (param :: params) got) :
    (param = .symbol restMarker ∧ ∃ last, params = [last]) ∨
      (param ≠ .symbol restMarker ∧ ∃ count, got = count + 1 ∧ Fits params count) := by
  generalize whole : param :: params = all at h
  cases h with
  | all plain =>
      subst whole
      obtain ⟨first, others⟩ := plain_cons.1 plain
      exact .inr ⟨first, params.length, rfl, .all others⟩
  | @rest fixed last _ plain enough =>
      cases fixed with
      | nil =>
          obtain ⟨rfl, rfl⟩ := List.cons.inj whole
          exact .inl ⟨rfl, last, rfl⟩
      | cons other fixed =>
          obtain ⟨rfl, rfl⟩ := List.cons.inj whole
          obtain ⟨first, others⟩ := plain_cons.1 plain
          obtain ⟨count, rfl⟩ := Nat.exists_eq_add_of_lt (Nat.lt_of_lt_of_le (Nat.succ_pos _) enough)
          exact .inr ⟨first, 0 + count, rfl, .rest others (Nat.le_of_succ_le_succ enough)⟩

theorem Fits.of_nil (h : Fits [] items.length) : items = [] := by
  generalize whole : ([] : List Value) = params, size : items.length = count at h
  cases h with
  | all plain =>
      subst whole
      exact List.length_eq_zero_iff.1 size
  | rest plain enough => simp at whole

theorem Fits.cons (plain : param ≠ .symbol restMarker) (h : Fits params got) :
    Fits (param :: params) (got + 1) := by
  cases h with
  | all others => exact .all (plain_cons.2 ⟨plain, others⟩)
  | rest others enough =>
      exact @Fits.rest (param :: _) _ _ (plain_cons.2 ⟨plain, others⟩) (Nat.succ_le_succ enough)

end Counts

theorem TakesItems.fits {n n' : NodeId} {params items : List Value} {named : List (String × Value)}
    (h : TakesItems n params items named n') : Fits params items.length := by
  induction items generalizing n params named with
  | nil =>
      cases h with
      | nil => exact .all nofun
      | rest _ => exact @Fits.rest [] _ _ nofun (Nat.zero_le _)
  | cons item items ih =>
      cases h with
      | cons plain _ others => exact (ih others).cons plain
      | rest _ => exact @Fits.rest [] _ _ nofun (Nat.zero_le _)

mutual

/-- Every parameter takes a value or refuses it. -/
theorem takes_or_refuses : ∀ (param : Value) (n : NodeId) (value : Value),
    (∃ named n', Takes n param value named n') ∨ ∃ named n' error, Refuses n param value named n' error
  | .symbol name, n, value => .inl ⟨_, _, .symbol⟩
  | .seq label kind params, n, value => by
      cases elements : value.elements? with
      | none => exact .inr ⟨_, _, _, .value elements⟩
      | some items =>
          obtain fits | ⟨error, misfits⟩ := fits_or_misfits params items.length
          · obtain ⟨named, n', each⟩ | ⟨named, n', error, one⟩ := takesItems_or_refuses params n items fits
            · exact .inl ⟨_, _, .seq elements each⟩
            · exact .inr ⟨_, _, _, .seq elements fits one⟩
          · exact .inr ⟨_, _, _, .count elements misfits⟩
  | .nil, _, _ | .bool _, _, _ | .number _, _, _ | .string _, _, _ | .keyword _, _, _ | .map _ _, _, _
  | .native _, _, _ | .fn _ _ _ _ _, _, _ => .inr ⟨_, _, _, .param nofun rfl⟩

theorem takesItems_or_refuses : ∀ (params : List Value) (n : NodeId) (items : List Value),
    Fits params items.length →
      (∃ named n', TakesItems n params items named n') ∨
        ∃ named n' error, RefusesItems n params items named n' error
  | [], n, items, fits => by
      obtain rfl := fits.of_nil
      exact .inl ⟨_, _, .nil⟩
  | param :: params, n, items, fits => by
      obtain ⟨rfl, last, rfl⟩ | ⟨plain, count, size, others⟩ := fits.of_cons
      · obtain ⟨named, n', remaining⟩ | ⟨named, n', error, remaining⟩ :=
          takes_or_refuses last (n + 1) (.seq n .list items)
        · exact .inl ⟨_, _, .rest remaining⟩
        · exact .inr ⟨_, _, _, .rest remaining⟩
      · obtain ⟨item, items, rfl⟩ := List.exists_cons_of_length_eq_add_one size
        obtain rfl : items.length = count := Nat.succ.inj size
        obtain ⟨named, n', first⟩ | ⟨named, n', error, first⟩ := takes_or_refuses param n item
        · obtain ⟨named', n'', each⟩ | ⟨named', n'', error, one⟩ :=
            takesItems_or_refuses params n' items others
          · exact .inl ⟨_, _, .cons plain first each⟩
          · exact .inr ⟨_, _, _, .later plain first one⟩
        · exact .inr ⟨_, _, _, .here plain first⟩

end

theorem takesAll_or_refusesAll (n : NodeId) (params : Value) (args : List Value) :
    (∃ named n', TakesAll n params args named n') ∨
      ∃ named n' error, RefusesAll n params args named n' error := by
  cases params with
  | symbol name => exact .inl ⟨_, _, .symbol⟩
  | seq label kind params =>
      obtain fits | ⟨error, misfits⟩ := fits_or_misfits params args.length
      · obtain ⟨named, n', each⟩ | ⟨named, n', error, one⟩ := takesItems_or_refuses params n args fits
        · exact .inl ⟨_, _, .seq each⟩
        · exact .inr ⟨_, _, _, .seq fits one⟩
      · exact .inr ⟨_, _, _, .count misfits⟩
  | nil | bool _ | number _ | string _ | keyword _ | map _ _ | native _ | fn _ _ _ _ _ =>
      exact .inr ⟨_, _, _, .params nofun rfl⟩

section Names

theorem itemsSymbols_cons {param : Value} (plain : param ≠ .symbol restMarker) (params : List Value) :
    itemsSymbols (param :: params) = symbols param ++ itemsSymbols params := by
  rw [itemsSymbols.eq_def]
  dsimp only
  rw [if_neg (mt Form.isSymbol_iff.1 plain)]

theorem itemsSymbols_rest (last : Value) : itemsSymbols [.symbol restMarker, last] = symbols last := by
  rw [itemsSymbols.eq_def]
  dsimp only
  rw [if_pos (Form.isSymbol_iff.2 rfl)]

mutual

/-- All names in a parameter are given to something. -/
theorem symbols_of_takes {n n' : NodeId} {param value : Value} {named : List (String × Value)} :
    Takes n param value named n' → named.map Prod.fst = symbols param
  | .symbol => by simp only [symbols, List.map_cons, List.map_nil]
  | .seq _ each => by rw [symbols, symbols_of_takesItems each]

theorem symbols_of_takesItems {n n' : NodeId} {params items : List Value}
    {named : List (String × Value)} :
    TakesItems n params items named n' → named.map Prod.fst = itemsSymbols params
  | .nil => by rw [itemsSymbols, List.map_nil]
  | .cons plain first others => by
      rw [itemsSymbols_cons plain, List.map_append, symbols_of_takes first, symbols_of_takesItems others]
  | .rest remaining => by rw [itemsSymbols_rest, symbols_of_takes remaining]

end

mutual

/-- The names that are given before something does not match are the first ones. -/
theorem symbols_of_refuses {n n' : NodeId} {param value : Value} {named : List (String × Value)}
    {error : Error} : Refuses n param value named n' error → named.map Prod.fst <+: symbols param
  | .param _ _ | .value _ | .count _ _ => List.nil_prefix
  | .seq _ _ one => by
      rw [symbols]
      exact symbols_of_refusesItems one

theorem symbols_of_refusesItems {n n' : NodeId} {params items : List Value}
    {named : List (String × Value)} {error : Error} :
    RefusesItems n params items named n' error → named.map Prod.fst <+: itemsSymbols params
  | .here plain first => by
      rw [itemsSymbols_cons plain]
      exact (symbols_of_refuses first).trans (List.prefix_append _ _)
  | .later plain first others => by
      rw [itemsSymbols_cons plain, List.map_append, symbols_of_takes first]
      exact (List.prefix_append_right_inj _).2 (symbols_of_refusesItems others)
  | .rest remaining => by
      rw [itemsSymbols_rest]
      exact symbols_of_refuses remaining

end

variable {n n' : NodeId} {params : Value} {args : List Value} {named : List (String × Value)}

theorem symbols_of_takesAll (h : TakesAll n params args named n') :
    named.map Prod.fst = symbols params := by
  cases h with
  | symbol => simp only [symbols, List.map_cons, List.map_nil]
  | seq each => rw [symbols, symbols_of_takesItems each]

theorem symbols_of_refusesAll {error : Error} (h : RefusesAll n params args named n' error) :
    named.map Prod.fst <+: symbols params := by
  cases h with
  | params _ _ | count _ => exact List.nil_prefix
  | seq fits one =>
      rw [symbols]
      exact symbols_of_refusesItems one

end Names

end Params

end AnnotatedLisp
