import AnnotatedLisp.Store.Basic
import Mathlib.Data.Option.Basic

/-!
Stamps are recorded over one another.

Evaluation never takes a stamp away: it records a value, an operation or an expansion, and what was
recorded of the other two stays. So a change that evaluation makes is the same wherever it is made, and what
a node is stamped with after a run is what the run recorded there, over what was there before.
-/

namespace AnnotatedLisp

namespace Stamps

/-- Of each stamp the later one, where there is one. -/
def atop (later earlier : Stamps) : Stamps :=
  ⟨later.evaluated.or earlier.evaluated, later.applied.or earlier.applied,
    later.expansion.or earlier.expansion⟩

theorem atop_assoc (a b c : Stamps) : (a.atop b).atop c = a.atop (b.atop c) := by
  simp only [atop, Option.or_assoc]

@[simp] theorem none_atop (stamps : Stamps) : none.atop stamps = stamps := rfl

@[simp] theorem atop_none (stamps : Stamps) : stamps.atop none = stamps := by
  simp only [atop, none, Option.or_none]

end Stamps

/-- A change of stamps that only records. -/
def Records (change : Stamps → Stamps) : Prop :=
  ∃ record : Stamps, ∀ stamps, change stamps = record.atop stamps

namespace Records

theorem evaluated (value : Value) : Records fun stamps => { stamps with evaluated := some value } :=
  ⟨⟨some value, none, none⟩, fun _ => rfl⟩

theorem applied (operation : Value) :
    Records fun stamps => { stamps with applied := some operation } :=
  ⟨⟨none, some operation, none⟩, fun _ => rfl⟩

theorem expansion (form : Value) : Records fun stamps => { stamps with expansion := some form } :=
  ⟨⟨none, none, some form⟩, fun _ => rfl⟩

/-- What lies under the stamps stays under them. -/
theorem change_atop {change : Stamps → Stamps} (records : Records change) (stamps under : Stamps) :
    change (stamps.atop under) = (change stamps).atop under := by
  obtain ⟨record, same⟩ := records
  rw [same, same, Stamps.atop_assoc]

end Records

namespace Store

theorem stampsAt_stamp (s : Store) (node other : NodeId) (change : Stamps → Stamps) :
    (s.stamp node change).stampsAt other =
      if node = other then change (s.stampsAt other) else s.stampsAt other := by
  unfold stamp stampsAt
  rw [Std.TreeMap.getD_insert]
  simp only [Std.LawfulEqCmp.compare_eq_iff_eq]
  split
  next here => rw [here]
  next => rfl

end Store

end AnnotatedLisp
