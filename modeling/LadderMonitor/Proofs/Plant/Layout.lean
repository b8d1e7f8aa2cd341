import LadderMonitor.Plant.Layout
import LadderMonitor.Proofs.Document.Reading
import LadderMonitor.Proofs.Table
import Mathlib.Data.List.Pairwise

namespace LadderMonitor

namespace MemoryRegion

variable {a b : MemoryRegion}

theorem overlaps_comm (a b : MemoryRegion) : a.overlaps b = b.overlaps a := by
  unfold overlaps
  rw [Bool.or_comm, Bool.and_comm]

/-- Two regions overlap exactly if they share an address. -/
theorem overlaps_iff (ha : 0 ≤ a.size) (hb : 0 ≤ b.size) :
    a.overlaps b ↔ ∃ address, a.Contains address ∧ b.Contains address := by
  unfold overlaps Contains stop
  split
  · rename_i hempty
    rw [Bool.or_eq_true, decide_eq_true_iff, decide_eq_true_iff] at hempty
    simp only [Bool.false_eq_true, false_iff, not_exists]
    omega
  · rename_i hsome
    rw [Bool.or_eq_true, decide_eq_true_iff, decide_eq_true_iff] at hsome
    rw [Bool.and_eq_true, decide_eq_true_iff, decide_eq_true_iff]
    constructor
    · intro hmeet
      exact ⟨max a.offset b.offset, by omega, by omega⟩
    · rintro ⟨address, hfirst, hsecond⟩
      omega

end MemoryRegion

/-- Whether a region starts at an address and takes so many bytes that there can be. -/
def MemoryRegion.Proper (m : MemoryRegion) : Prop := 0 ≤ m.offset ∧ 0 ≤ m.size

theorem MemoryRegion.proper_of_ofFields {fields : Fields} {m : MemoryRegion}
    (h : ofFields fields = .ok m) : m.Proper := by
  obtain ⟨make, size, hmake, -, rfl⟩ := Reading.seq_eq_ok_iff.1 h
  obtain ⟨offset, -, rfl⟩ := Reading.fmap_eq_ok_iff.1 hmake
  exact ⟨Int.natCast_nonneg offset, Int.natCast_nonneg size⟩

namespace RegionTable

variable {α : Type} {table : RegionTable}

theorem proper_defaultOf (r : Region) : (defaultOf r).Proper := by
  unfold MemoryRegion.Proper
  cases r <;> decide

/-- The last value that entries give a region under one kind of spelling. -/
def lastSpelled (s : Spelling) (r : Region) (entries : List (Spelling × Region × α)) : Option α :=
  ((entries.filter fun e => e.1 = s ∧ e.2.1 = r).getLast?).map (·.2.2)

/-- The value that entries give a region. The canonical spelling takes precedence. -/
def given (entries : List (Spelling × Region × α)) (r : Region) : Option α :=
  (lastSpelled .canonical r entries).or (lastSpelled .older r entries)

theorem get?_spelled (s : Spelling) (r : Region) (entries : List (Spelling × Region × α)) :
    Assoc.get? r ((entries.filter (·.1 = s)).foldl
        (fun table e => Assoc.set e.2.1 e.2.2 table) []) =
      lastSpelled s r entries := by
  have hpairs : (entries.filter (·.1 = s)).foldl (fun table e => Assoc.set e.2.1 e.2.2 table) [] =
      ((entries.filter (·.1 = s)).map (·.2)).foldl (fun table e => Assoc.set e.1 e.2 table) [] := by
    rw [List.foldl_map]
  have hboth : (fun e : Spelling × Region × α => decide (e.2.1 = r) && decide (e.1 = s)) =
      fun e => decide (e.1 = s ∧ e.2.1 = r) := by
    funext e
    rw [Bool.and_comm, Bool.decide_and]
  rw [hpairs, Assoc.get?_foldl_set, Assoc.get?_reverse, List.filter_map, List.getLast?_map,
    Option.map_map, List.filter_filter, Assoc.get?, Option.or_none]
  exact congrArg (fun p => ((entries.filter p).getLast?).map (·.2.2)) hboth

theorem mem_of_given {entries : List (Spelling × Region × α)} {r : Region} {value : α}
    (h : given entries r = some value) : ∃ s, (s, r, value) ∈ entries := by
  have hmem {s : Spelling} (hlast : lastSpelled s r entries = some value) :
      (s, r, value) ∈ entries := by
    obtain ⟨⟨s', r', value'⟩, hfound, rfl⟩ := Option.map_eq_some_iff.1 hlast
    obtain ⟨hentry, hkeys⟩ := List.mem_filter.1 (List.mem_of_getLast? hfound)
    obtain ⟨rfl, rfl⟩ := of_decide_eq_true hkeys
    exact hentry
  rcases Option.or_eq_some_iff.1 h with hcanonical | ⟨-, holder⟩
  · exact ⟨_, hmem hcanonical⟩
  · exact ⟨_, hmem holder⟩

/-- A completed layout has for each region the value that is given, else the default. -/
theorem get?_complete (default : Region → α) (entries : List (Spelling × Region × α)) (r : Region) :
    Assoc.get? r (complete default entries) = some ((given entries r).getD (default r)) := by
  have hdefaults (table : List (Region × α)) :
      Region.all.foldl (fun table r => Assoc.setAbsent r (default r) table) table =
        (Region.all.map fun r => (r, default r)).foldl
          (fun table e => Assoc.setAbsent e.1 e.2 table) table := by rw [List.foldl_map]
  have hdefault : Assoc.get? r (Region.all.map fun r => (r, default r)) = some (default r) := by
    cases r <;> rfl
  unfold complete
  simp only
  rw [hdefaults, Assoc.get?_foldl_setAbsent, Assoc.get?_foldl_setAbsent, get?_spelled, get?_spelled,
    hdefault, given]
  cases (lastSpelled .canonical r entries).or (lastSpelled .older r entries) with
  | none => rfl
  | some value => rfl

theorem nodup_keys_complete (default : Region → α) (entries : List (Spelling × Region × α)) :
    ((complete default entries).map (·.1)).Nodup := by
  have hspelled (s : Spelling) : (((entries.filter (·.1 = s)).foldl
      (fun table e => Assoc.set e.2.1 e.2.2 table) []).map (·.1)).Nodup := by
    apply List.foldlRecOn (motive := fun table : List (Region × α) => (table.map (·.1)).Nodup)
    · exact List.nodup_nil
    · exact fun table h e _ => Assoc.nodup_keys_set h
  unfold complete
  simp only
  apply List.foldlRecOn (motive := fun table : List (Region × α) => (table.map (·.1)).Nodup)
  · apply List.foldlRecOn (motive := fun table : List (Region × α) => (table.map (·.1)).Nodup)
    · exact hspelled .canonical
    · exact fun table h e _ => Assoc.nodup_keys_setAbsent h
  · exact fun table h r _ => Assoc.nodup_keys_setAbsent h

/-- The layout that entries complete to: a region under every name, each once. -/
structure Completes (entries : List (Spelling × Region × RegionEntry)) (table : RegionTable) :
    Prop where
  keys : (table.map (·.1)).Nodup
  /-- Every region is the one that is given for it, else the default. -/
  region : ∀ r, ∃ m, table.find? r = some m ∧ m.Proper ∧
    (given entries r).getD (.region (defaultOf r)) = .region m

theorem Completes.proper {entries : List (Spelling × Region × RegionEntry)}
    (h : Completes entries table) : ∀ entry ∈ table, entry.2.Proper := by
  intro entry hentry
  obtain ⟨m, hm, hproper, -⟩ := h.region entry.1
  have hsame : table.find? entry.1 = some entry.2 := (Assoc.get?_eq_some_iff h.keys).2 hentry
  rw [hsame] at hm
  rwa [Option.some.inj hm]

/-- No address belongs to two regions. -/
def Apart (table : RegionTable) : Prop :=
  ∀ r r' m m', r ≠ r' → table.find? r = some m → table.find? r' = some m' →
    ∀ address, ¬ (m.Contains address ∧ m'.Contains address)

theorem firstOverlap_eq_none_iff :
    table.firstOverlap = none ↔ table.Pairwise fun a b => ¬ a.2.overlaps b.2 := by
  induction table with
  | nil => simp [firstOverlap]
  | cons a rest ih =>
    rw [firstOverlap, List.pairwise_cons, ← ih]
    cases hfound : rest.find? fun b => a.2.overlaps b.2 with
    | none =>
      have hfree := List.find?_eq_none.1 hfound
      exact ⟨fun h => ⟨hfree, h⟩, fun h => h.2⟩
    | some b =>
      have hmem := List.mem_of_find?_eq_some hfound
      have hmeets : a.2.overlaps b.2 := by simpa using List.find?_some hfound
      exact ⟨nofun, fun h => absurd hmeets (h.1 b hmem)⟩

/-- A layout without overlapping pairs is one in which no address belongs to two regions. -/
theorem pairwise_iff_apart (hkeys : (table.map (·.1)).Nodup)
    (hproper : ∀ entry ∈ table, entry.2.Proper) :
    (table.Pairwise fun a b => ¬ a.2.overlaps b.2) ↔ table.Apart := by
  have hentries : table.Nodup := hkeys.of_map _
  have hsymm : Std.Symm fun a b : Region × MemoryRegion => ¬ a.2.overlaps b.2 :=
    ⟨fun a b h => by rwa [MemoryRegion.overlaps_comm]⟩
  constructor
  · intro hpairs r r' m m' hne hm hm' address hboth
    have hmem := Assoc.mem_of_get? hm
    have hmem' := Assoc.mem_of_get? hm'
    have hapart : ¬ m.overlaps m' :=
      hpairs.forall hmem hmem' fun heq => hne (Prod.mk.inj heq).1
    rw [MemoryRegion.overlaps_iff (hproper _ hmem).2 (hproper _ hmem').2] at hapart
    exact hapart ⟨address, hboth⟩
  · intro hapart
    refine hentries.pairwise_of_forall_ne fun a ha b hb hne => ?_
    rw [MemoryRegion.overlaps_iff (hproper a ha).2 (hproper b hb).2]
    rintro ⟨address, hboth⟩
    have hnames : a.1 ≠ b.1 := fun heq => hne (List.inj_on_of_nodup_map hkeys ha hb heq)
    exact hapart a.1 b.1 a.2 b.2 hnames ((Assoc.get?_eq_some_iff hkeys).2 ha)
      ((Assoc.get?_eq_some_iff hkeys).2 hb) address hboth

end RegionTable

namespace Layout

open RegionTable

variable {entries : List (Spelling × Region × RegionEntry)} {table : RegionTable}

theorem proper_of_readEntry {key : String} {value : Document} {s : Spelling} {r : Region}
    {m : MemoryRegion} (h : readEntry key value = .ok (s, r, .region m)) : m.Proper := by
  unfold readEntry at h
  split at h
  · cases h
  · split at h
    · obtain ⟨m', hread, heq⟩ := Reading.map_eq_ok_iff.1 h
      obtain rfl := RegionEntry.region.inj (Prod.mk.inj (Prod.mk.inj heq).2).2
      exact MemoryRegion.proper_of_ofFields hread
    · have hother := (Prod.mk.inj (Prod.mk.inj (Reading.ok.inj h)).2).2
      cases hother

theorem proper_of_readEntries {document : List (String × Document)}
    (h : readEntries document = .ok entries) {s : Spelling} {r : Region} {m : MemoryRegion}
    (hm : (s, r, .region m) ∈ entries) : m.Proper := by
  induction document generalizing entries with
  | nil =>
    cases h
    cases hm
  | cons first rest ih =>
    obtain ⟨entry, hentry, hrest⟩ := Reading.andThen_eq_ok_iff.1 h
    obtain ⟨later, hlater, rfl⟩ := Reading.map_eq_ok_iff.1 hrest
    rcases List.mem_cons.1 hm with rfl | hmem
    · exact proper_of_readEntry hentry
    · exact ih hlater hmem

theorem regions_eq_ok_iff {completed : List (Region × RegionEntry)} :
    regions completed = .ok table ↔
      completed = table.map fun entry => (entry.1, .region entry.2) := by
  induction completed generalizing table with
  | nil => cases table <;> simp [regions]
  | cons first rest ih =>
    obtain ⟨name, value⟩ := first
    cases value with
    | region m =>
      rw [regions, Reading.map_eq_ok_iff]
      constructor
      · rintro ⟨later, hlater, rfl⟩
        rw [List.map_cons, ih.1 hlater]
      · intro heq
        cases table with
        | nil => cases heq
        | cons entry later =>
          obtain ⟨hfirst, hlater⟩ := List.cons.inj heq
          obtain ⟨rfl, hm⟩ := Prod.mk.inj hfirst
          obtain rfl := RegionEntry.region.inj hm
          exact ⟨later, ih.2 hlater, rfl⟩
    | other d =>
      constructor
      · intro h
        obtain ⟨_, _, hrefused, -⟩ := Reading.seq_eq_ok_iff.1 h
        obtain ⟨_, hvalue, -⟩ := Reading.fmap_eq_ok_iff.1 hrefused
        rw [Reading.inside_eq_ok_iff] at hvalue
        cases hvalue
      · intro heq
        cases table with
        | nil => cases heq
        | cons entry later => cases (Prod.mk.inj (List.cons.inj heq).1).2

/-- A layout that is read is the one that its entries complete to. -/
theorem completes_of_ofDocument {d : Document} (h : ofDocument d = .ok table) :
    ∃ document entries, Layout.entries d = .ok document ∧ readEntries document = .ok entries ∧
      Completes entries table := by
  unfold ofDocument at h
  split at h
  · cases h
  · rename_i document hdocument
    split at h
    · rename_i completed hcompleted
      obtain ⟨entries, hentries, rfl⟩ := Reading.map_eq_ok_iff.1 hcompleted
      have hregions := regions_eq_ok_iff.1 h
      refine ⟨document, entries, hdocument, hentries, ?_, fun r => ?_⟩
      · have hkeys := nodup_keys_complete (fun r => .region (defaultOf r)) entries
        rwa [hregions, List.map_map] at hkeys
      · have hvalue := get?_complete (fun r => .region (defaultOf r)) entries r
        rw [hregions, Assoc.get?_map, Option.map_eq_some_iff] at hvalue
        obtain ⟨m, hm, heq⟩ := hvalue
        refine ⟨m, hm, ?_, heq.symm⟩
        cases hgiven : given entries r with
        | none =>
          rw [hgiven] at heq
          obtain rfl := RegionEntry.region.inj heq
          exact proper_defaultOf r
        | some value =>
          rw [hgiven] at heq
          obtain rfl : RegionEntry.region m = value := heq
          obtain ⟨s, hmem⟩ := mem_of_given hgiven
          exact proper_of_readEntries hentries hmem
    · cases h
    · cases h

end Layout

end LadderMonitor
