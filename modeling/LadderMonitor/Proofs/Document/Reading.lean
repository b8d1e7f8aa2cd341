import LadderMonitor.Document.Reading
import LadderMonitor.Proofs.Table

namespace LadderMonitor

namespace Reading

variable {α β : Type} {b : β}

theorem map_eq_ok_iff {f : α → β} {x : Reading α} : x.map f = .ok b ↔ ∃ a, x = .ok a ∧ f a = b := by
  cases x with
  | ok a => simp [map]
  | refused issues => simp [map]
  | aborted fault => simp [map]

theorem seq_eq_ok_iff {f : Reading (α → β)} {x : Reading α} :
    f <*> x = .ok b ↔ ∃ g a, f = .ok g ∧ x = .ok a ∧ g a = b := by
  change both f x = .ok b ↔ _
  cases f with
  | ok g => cases x <;> simp [both]
  | refused issues => cases x <;> simp [both]
  | aborted fault => simp [both]

theorem fmap_eq_ok_iff {f : α → β} {x : Reading α} :
    f <$> x = .ok b ↔ ∃ a, x = .ok a ∧ f a = b := by
  change both (.ok f) x = .ok b ↔ _
  cases x <;> simp [both]

theorem andThen_eq_ok_iff {x : Reading α} {next : α → Reading β} :
    x.andThen next = .ok b ↔ ∃ a, x = .ok a ∧ next a = .ok b := by
  cases x with
  | ok a => simp [andThen]
  | refused issues => simp [andThen]
  | aborted fault => simp [andThen]

theorem inside_eq_ok_iff {step : PathStep} {x : Reading β} : x.inside step = .ok b ↔ x = .ok b := by
  cases x with
  | ok a => exact Iff.rfl
  | refused issues => simp [inside]
  | aborted fault => exact Iff.rfl

end Reading

variable {α : Type} {read : Document → Reading α}

/-- A list is read just if each of its items is. -/
theorem Document.readItems_eq_ok_iff {documents : List Document} {items : List α}
    {position : Nat} :
    readItems read position documents = .ok items ↔ documents.map read = items.map .ok := by
  induction documents generalizing position items with
  | nil => cases items <;> simp [readItems]
  | cons first rest ih =>
    constructor
    · intro h
      obtain ⟨put, others, hput, hothers, rfl⟩ := Reading.seq_eq_ok_iff.1 h
      obtain ⟨item, hitem, rfl⟩ := Reading.fmap_eq_ok_iff.1 hput
      rw [List.map_cons, List.map_cons, Reading.inside_eq_ok_iff.1 hitem, ih.1 hothers]
    · intro h
      obtain ⟨item, others, rfl, hitem, hothers⟩ := List.map_eq_cons_iff.1 h.symm
      have hput : (read first).inside (.index position) = .ok item :=
        Reading.inside_eq_ok_iff.2 hitem.symm
      exact Reading.seq_eq_ok_iff.2 ⟨List.cons item, others,
        Reading.fmap_eq_ok_iff.2 ⟨item, hput, rfl⟩, ih.2 hothers.symm, rfl⟩

theorem Document.exists_of_mem_readItems {documents : List Document} {items : List α}
    {position : Nat} (h : readItems read position documents = .ok items) :
    ∀ d ∈ documents, ∃ item, read d = .ok item := by
  intro d hd
  have hmem := List.mem_map_of_mem (f := read) hd
  rw [readItems_eq_ok_iff.1 h] at hmem
  obtain ⟨item, -, hitem⟩ := List.mem_map.1 hmem
  exact ⟨item, hitem.symm⟩

/-- Every item of a list that is read is read from a document. -/
theorem Document.exists_of_mem_readList {d : Document} {items : List α}
    (h : d.readList read = .ok items) : ∀ item ∈ items, ∃ d, read d = .ok item := by
  intro item hitem
  cases d with
  | list documents =>
    have hmem : Reading.ok item ∈ items.map .ok := List.mem_map_of_mem hitem
    rw [← readItems_eq_ok_iff.1 h] at hmem
    obtain ⟨d, -, hread⟩ := List.mem_map.1 hmem
    exact ⟨d, hread⟩
  | _ => cases h

theorem Document.readItems_congr {documents others : List Document}
    (h : documents.map read = others.map read) (position : Nat) :
    readItems read position documents = readItems read position others := by
  induction documents generalizing others position with
  | nil => rw [List.map_eq_nil_iff.1 h.symm]
  | cons d rest ih =>
    obtain ⟨d', rest', rfl, hitem, hrest⟩ := List.map_eq_cons_iff.1 h.symm
    rw [readItems, readItems, hitem, ih hrest.symm]

/-- An optional field has the value for its absence or is read from a document. -/
theorem Fields.eq_absent_or_exists_of_optional {fields : Fields} {names : List String}
    {absent value : α} (h : fields.optional names absent read = .ok value) :
    value = absent ∨ ∃ d, read d = .ok value := by
  rw [Fields.optional] at h
  split at h
  · exact .inr ⟨_, Reading.inside_eq_ok_iff.1 h⟩
  · exact .inl (Reading.ok.inj h).symm

namespace Fields

variable {fields : Fields} {key : String} {d : Document} {names : List String}

theorem lookup_set {name : String} : List.lookup name (Assoc.set key d fields) =
    if name = key then some d else List.lookup name fields := by
  rw [Assoc.lookup_eq_get?, Assoc.lookup_eq_get?, Assoc.get?_set]

/-- A field that is put does not change what is read from others. -/
theorem optional_set (hnames : key ∉ names) (absent : α) (read : Document → Reading α) :
    Fields.optional (Assoc.set key d fields) names absent read =
      fields.optional names absent read := by
  have hget : Fields.get? (Assoc.set key d fields) names = fields.get? names := by
    induction names with
    | nil => rfl
    | cons name rest ih =>
      obtain ⟨hname, hrest⟩ := List.ne_and_not_mem_of_not_mem_cons hnames
      unfold Fields.get? at ih ⊢
      rw [List.findSome?_cons, List.findSome?_cons, lookup_set, if_neg (Ne.symm hname), ih hrest]
  unfold Fields.optional
  rw [hget]

end Fields

end LadderMonitor
