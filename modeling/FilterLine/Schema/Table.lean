import FilterLine.Text.Basic

/-!
Tables keyed by texts, their entries in strictly increasing order of the keys. An entry put under
a key replaces the one that was there and touches no other.
-/
namespace FilterLine

abbrev Increasing {α : Type} (entries : List (Text × α)) : Prop :=
  entries.Pairwise fun a b => a.1 < b.1

/-- Entries in increasing order of their keys. -/
structure Table (α : Type) where
  entries : List (Text × α)
  increasing : Increasing entries

namespace Table

variable {α : Type}

instance [DecidableEq α] : DecidableEq (Table α) := fun s t =>
  decidable_of_iff (s.entries = t.entries) (by cases s; cases t; simp)

instance [Repr α] : Repr (Table α) := ⟨fun t p => reprPrec t.entries p⟩

def empty : Table α := ⟨[], .nil⟩

instance : Inhabited (Table α) := ⟨empty⟩

def isEmpty (t : Table α) : Bool := t.entries.isEmpty

def get? (t : Table α) (key : Text) : Option α := t.entries.lookup key

/-- Puts a value under a key, in place of the one that was there. -/
def place (key : Text) (value : α) : List (Text × α) → List (Text × α)
  | [] => [(key, value)]
  | e :: r =>
    if key = e.1 then (key, value) :: r
    else if key < e.1 then (key, value) :: e :: r
    else e :: place key value r

/-- What is placed among entries is one of them then, and nothing else is new. -/
theorem mem_place {key : Text} {value : α} {l : List (Text × α)} {e : Text × α}
    (h : e ∈ place key value l) : e = (key, value) ∨ e ∈ l := by
  induction l with
  | nil => simpa [place] using h
  | cons d r ih =>
    simp only [place] at h
    split at h
    · simp at h ⊢; grind
    · split at h <;> simp at h ⊢ <;> grind

/-- Placing an entry keeps the keys increasing. -/
theorem increasing_place (key : Text) (value : α) {l : List (Text × α)} (h : Increasing l) :
    Increasing (place key value l) := by
  induction l with
  | nil => simp [place]
  | cons d r ih =>
    obtain ⟨hd, hr⟩ := List.pairwise_cons.mp h
    simp only [place]
    split
    · rename_i hk
      exact List.pairwise_cons.mpr ⟨fun e he => hk ▸ hd e he, hr⟩
    · split
      · rename_i hlt
        refine List.pairwise_cons.mpr ⟨fun e he => ?_, h⟩
        rcases List.mem_cons.mp he with rfl | he
        · exact hlt
        · exact List.lt_trans hlt (hd e he)
      · rename_i hne hnlt
        refine List.pairwise_cons.mpr ⟨fun e he => ?_, ih hr⟩
        rcases mem_place he with rfl | he
        · exact (List.le_iff_lt_or_eq.mp (List.not_lt.mp hnlt)).resolve_right (Ne.symm hne)
        · exact hd e he

def insert (t : Table α) (key : Text) (value : α) : Table α :=
  ⟨place key value t.entries, increasing_place key value t.increasing⟩

/-- The table of a list of entries, where a later entry replaces an earlier one of its key. -/
def ofList (l : List (Text × α)) : Table α := l.foldl (fun t e => t.insert e.1 e.2) empty

theorem get?_empty (key : Text) : (empty : Table α).get? key = none := rfl

/-- What is inserted is found under its key, and the other keys are as before. -/
theorem get?_insert (t : Table α) (k key : Text) (value : α) :
    (t.insert k value).get? key = if key = k then some value else t.get? key := by
  obtain ⟨l, hl⟩ := t
  simp only [get?, insert]
  clear hl
  induction l with
  | nil => by_cases h : key = k <;> grind [place]
  | cons d r ih =>
    simp only [place]
    by_cases hkd : k = d.1
    · by_cases h : key = k <;> grind
    · by_cases hlt : k < d.1 <;> by_cases h : key = k <;> grind

end Table
end FilterLine
