import LadderMonitor.Proofs.Plant.Layout
import LadderMonitor.Proofs.Text.Spelling

namespace LadderMonitor

namespace Region

/-- The names of a region, in its present or an older spelling. -/
def spellings : Spelling → Region → List String
  | .canonical, r => [r.name]
  | .older, .system => ["control"]
  | .older, .marker => ["memory"]
  | .older, _ => []

theorem isBlank_of_mem_spellings {s : Spelling} {r : Region} {name : String}
    (h : name ∈ spellings s r) : ∀ c ∈ name.toList, Text.isBlank c = false := by
  have hall : (spellings s r).all fun name => name.toList.all (!Text.isBlank ·) := by
    cases s <;> cases r <;> decide
  intro c hc
  simpa using List.all_eq_true.1 (List.all_eq_true.1 hall name h) c hc

theorem older?_eq_some_iff {key : String} {r : Region} :
    older? key = some r ↔ key ∈ spellings .older r := by
  by_cases hcontrol : key = "control"
  · subst hcontrol
    cases r <;> decide
  · by_cases hmemory : key = "memory"
    · subst hmemory
      cases r <;> decide
    · have hnone : older? key = none := by
        simp only [older?, olderNames, List.lookup_cons, List.lookup_nil,
          beq_eq_false_iff_ne.2 hcontrol, beq_eq_false_iff_ne.2 hmemory]
      rw [hnone]
      cases r <;> simp [spellings, hcontrol, hmemory]

theorem ofName?_eq_some_iff {key : String} {r : Region} :
    ofName? key = some r ↔ key ∈ spellings .canonical r := by
  rw [spellings, List.mem_singleton]
  constructor
  · intro h
    have hname := List.find?_some h
    exact (beq_iff_eq.1 hname).symm
  · rintro rfl
    cases r <;> rfl

theorem not_canonical_of_older {key : String} {r r' : Region} (h : older? key = some r') :
    key ∉ spellings .canonical r := by
  rw [spellings, List.mem_singleton]
  rintro rfl
  cases r <;> cases h

end Region

namespace LayoutKey

/-- Whether a key names a region in a spelling. A region that has been found already is canonical.
-/
inductive Spells : LayoutKey → Spelling → Region → Prop where
  | text {text name : String} {s : Spelling} {r : Region} (hname : name ∈ Region.spellings s r)
      (htext : Text.Spells text name) : Spells (.text text) s r
  | region (r : Region) : Spells (.region r) .canonical r

/-- The spelling of a key that names a region. -/
def spelling : LayoutKey → Spelling
  | text name => Layout.spelling name
  | region _ => .canonical

theorem nameKey_mem_spellings_iff {text : String} {s : Spelling} {r : Region} :
    Text.nameKey text ∈ Region.spellings s r ↔ Spells (.text text) s r := by
  constructor
  · intro hmem
    exact .text hmem ((Text.nameKey_eq_iff (Region.isBlank_of_mem_spellings hmem)).1 rfl)
  · rintro ⟨hname, htext⟩
    rwa [(Text.nameKey_eq_iff (Region.isBlank_of_mem_spellings hname)).2 htext]

theorem readKey_eq_ok_iff {key : LayoutKey} {s : Spelling} {r : Region} :
    Layout.readKey key = .ok (s, r) ↔ key.Spells s r := by
  cases key with
  | region r' =>
    rw [Layout.readKey]
    constructor
    · rintro ⟨⟩
      exact .region r
    · rintro ⟨⟩
      rfl
  | text name =>
    rw [← nameKey_mem_spellings_iff, Layout.readKey, Region.parse?, Layout.spelling]
    generalize Text.nameKey name = key
    cases holder : Region.older? key with
    | some r' =>
      cases s with
      | older => simp [← Region.older?_eq_some_iff, holder]
      | canonical =>
        have hother : key ∉ Region.spellings .canonical r := Region.not_canonical_of_older holder
        simp [hother]
    | none =>
      cases s with
      | older => cases Region.ofName? key <;> simp [← Region.older?_eq_some_iff, holder]
      | canonical =>
        rw [← Region.ofName?_eq_some_iff]
        cases Region.ofName? key <;> simp

theorem Spells.spelling_eq {key : LayoutKey} {s : Spelling} {r : Region} (h : key.Spells s r) :
    key.spelling = s := by
  have hread := readKey_eq_ok_iff.2 h
  cases key with
  | region r' =>
    cases h
    rfl
  | text name =>
    rw [Layout.readKey] at hread
    split at hread
    · cases hread
    · exact (Prod.mk.inj (Reading.ok.inj hread)).1

theorem Spells.unique {key : LayoutKey} {s s' : Spelling} {r r' : Region} (h : key.Spells s r)
    (h' : key.Spells s' r') : s' = s ∧ r' = r := by
  have hread := readKey_eq_ok_iff.2 h
  rw [readKey_eq_ok_iff.2 h'] at hread
  exact Prod.mk.inj (Reading.ok.inj hread)

end LayoutKey

/-- The region that a value is, or that its fields describe. -/
inductive RegionEntry.Describes : RegionEntry → MemoryRegion → Prop where
  | region (m : MemoryRegion) : Describes (.region m) m
  | object {fields : Fields} {m : MemoryRegion} (hfields : MemoryRegion.ofFields fields = .ok m) :
      Describes (.other (.object fields)) m

theorem RegionEntry.readValue_eq_ok_iff {value : RegionEntry} {m : MemoryRegion} :
    Layout.readValue value = .ok (.region m) ↔ value.Describes m := by
  constructor
  · intro h
    match value with
    | .region m' =>
      cases h
      exact .region m
    | .other d =>
      cases d with
      | object fields =>
        obtain ⟨m', hfields, hm⟩ := Reading.map_eq_ok_iff.1 h
        cases hm
        exact .object hfields
      | _ => cases h
  · rintro (_ | hfields)
    · rfl
    · exact Reading.map_eq_ok_iff.2 ⟨m, hfields, rfl⟩

theorem RegionEntry.Describes.unique {value : RegionEntry} {m m' : MemoryRegion}
    (h : value.Describes m) (h' : value.Describes m') : m' = m := by
  have hread := RegionEntry.readValue_eq_ok_iff.2 h
  rw [RegionEntry.readValue_eq_ok_iff.2 h'] at hread
  exact RegionEntry.region.inj (Reading.ok.inj hread)

theorem RegionTable.lastSpelled_cons {α : Type} {e : Spelling × Region × α}
    {entries : List (Spelling × Region × α)} {s : Spelling} {r : Region} :
    lastSpelled s r (e :: entries) =
      (lastSpelled s r entries).or (if e.1 = s ∧ e.2.1 = r then some e.2.2 else none) := by
  rw [lastSpelled, lastSpelled]
  split
  · rename_i hnames
    rw [List.filter_cons_of_pos (by simpa using hnames), List.getLast?_cons]
    cases (entries.filter _).getLast? <;> rfl
  · rename_i hnames
    rw [List.filter_cons_of_neg (by simpa using hnames), Option.or_none]

namespace Layout

open RegionTable

variable {pairs rest : List (LayoutKey × RegionEntry)} {pair : LayoutKey × RegionEntry}
  {s : Spelling} {r : Region} {m : MemoryRegion} {entries : List (Spelling × Region × RegionEntry)}

/-- Whether no key names a region in a spelling. -/
def Unnamed (pairs : List (LayoutKey × RegionEntry)) (s : Spelling) (r : Region) : Prop :=
  ∀ pair ∈ pairs, ¬ pair.1.Spells s r

/-- Whether a region is described under the last key that names one in a spelling. -/
def LastUnder (pairs : List (LayoutKey × RegionEntry)) (s : Spelling) (r : Region)
    (m : MemoryRegion) : Prop :=
  ∃ before pair after, pairs = before ++ pair :: after ∧ pair.1.Spells s r ∧ pair.2.Describes m ∧
    Unnamed after s r

/-- The place in memory that pairs of keys and values give a region: the one under its last
canonical key, else the one under its last older key, else the default. -/
inductive Gives (pairs : List (LayoutKey × RegionEntry)) (r : Region) : MemoryRegion → Prop where
  | canonical {m : MemoryRegion} (hlast : LastUnder pairs .canonical r m) : Gives pairs r m
  | older {m : MemoryRegion} (hcanonical : Unnamed pairs .canonical r)
      (hlast : LastUnder pairs .older r m) : Gives pairs r m
  | default (hcanonical : Unnamed pairs .canonical r) (holder : Unnamed pairs .older r) :
      Gives pairs r (defaultOf r)

theorem unnamed_cons_iff :
    Unnamed (pair :: rest) s r ↔ ¬ pair.1.Spells s r ∧ Unnamed rest s r :=
  List.forall_mem_cons

theorem lastUnder_cons_iff :
    LastUnder (pair :: rest) s r m ↔ LastUnder rest s r m ∨
      (pair.1.Spells s r ∧ pair.2.Describes m ∧ Unnamed rest s r) := by
  constructor
  · rintro ⟨before, last, after, hparts, hlast⟩
    rcases List.cons_eq_append_iff.1 hparts with ⟨rfl, htail⟩ | ⟨before', rfl, rfl⟩
    · obtain ⟨rfl, rfl⟩ := List.cons.inj htail
      exact .inr hlast
    · exact .inl ⟨before', last, after, rfl, hlast⟩
  · rintro (⟨before, last, after, rfl, hlast⟩ | hlast)
    · exact ⟨pair :: before, last, after, rfl, hlast⟩
    · exact ⟨[], pair, rest, rfl, hlast⟩

/-- Whether every key names a region and every value is one. -/
structure Readable (pairs : List (LayoutKey × RegionEntry)) : Prop where
  keys : ∀ pair ∈ pairs, ∃ s r, pair.1.Spells s r
  values : ∀ pair ∈ pairs, ∃ m, pair.2.Describes m

/-- What is read for a pair: the spelling and the region of its key, and the place it describes. -/
def Read (pair : LayoutKey × RegionEntry) (entry : Spelling × Region × RegionEntry) : Prop :=
  pair.1.Spells entry.1 entry.2.1 ∧ ∃ m, pair.2.Describes m ∧ entry.2.2 = .region m

theorem Readable.exists_readTable (h : Readable pairs) :
    ∃ entries, readTable pairs = .ok entries ∧ List.Forall₂ Read pairs entries := by
  induction pairs with
  | nil => exact ⟨[], rfl, .nil⟩
  | cons pair rest ih =>
    obtain ⟨⟨s, r, hkey⟩, hkeys⟩ := List.forall_mem_cons.1 h.keys
    obtain ⟨⟨m, hvalue⟩, hvalues⟩ := List.forall_mem_cons.1 h.values
    obtain ⟨entries, hrest, hread⟩ := ih ⟨hkeys, hvalues⟩
    refine ⟨(s, r, .region m) :: entries, ?_, .cons ⟨hkey, m, hvalue, rfl⟩ hread⟩
    rw [readTable, Reading.andThen_eq_ok_iff]
    refine ⟨(s, r), LayoutKey.readKey_eq_ok_iff.2 hkey, Reading.andThen_eq_ok_iff.2 ?_⟩
    refine ⟨.region m, RegionEntry.readValue_eq_ok_iff.2 hvalue, ?_⟩
    exact Reading.map_eq_ok_iff.2 ⟨entries, hrest, rfl⟩

theorem Read.names_iff {entry : Spelling × Region × RegionEntry} (h : Read pair entry) :
    entry.1 = s ∧ entry.2.1 = r ↔ pair.1.Spells s r := by
  constructor
  · rintro ⟨rfl, rfl⟩
    exact h.1
  · intro hkey
    obtain ⟨hspelling, hregion⟩ := h.1.unique hkey
    exact ⟨hspelling.symm, hregion.symm⟩

theorem lastSpelled_of_unnamed (h : List.Forall₂ Read pairs entries)
    (hunnamed : Unnamed pairs s r) : lastSpelled s r entries = none := by
  induction h with
  | nil => rfl
  | cons hread _ ih =>
    obtain ⟨hkey, hrest⟩ := unnamed_cons_iff.1 hunnamed
    rw [lastSpelled_cons, ih hrest, if_neg fun hnames => hkey (hread.names_iff.1 hnames)]
    rfl

theorem lastSpelled_of_lastUnder (h : List.Forall₂ Read pairs entries)
    (hlast : LastUnder pairs s r m) : lastSpelled s r entries = some (.region m) := by
  induction h with
  | nil =>
    obtain ⟨before, pair, after, hparts, -⟩ := hlast
    simp at hparts
  | cons hread hrest ih =>
    rw [lastSpelled_cons]
    rcases lastUnder_cons_iff.1 hlast with hlater | ⟨hkey, hvalue, hunnamed⟩
    · rw [ih hlater, Option.some_or]
    · obtain ⟨m', hvalue', heq⟩ := hread.2
      rw [lastSpelled_of_unnamed hrest hunnamed, if_pos (hread.names_iff.2 hkey), heq,
        hvalue.unique hvalue']
      rfl

/-- A completed layout has for every region what the pairs give it. -/
theorem get?_complete_of_gives (h : List.Forall₂ Read pairs entries) (hgives : Gives pairs r m) :
    Assoc.get? r (complete (fun r => .region (defaultOf r)) entries) = some (.region m) := by
  rw [get?_complete, given]
  cases hgives with
  | canonical hlast => rw [lastSpelled_of_lastUnder h hlast, Option.some_or, Option.getD_some]
  | older hcanonical hlast =>
    rw [lastSpelled_of_unnamed h hcanonical, lastSpelled_of_lastUnder h hlast, Option.none_or,
      Option.getD_some]
  | default hcanonical holder =>
    rw [lastSpelled_of_unnamed h hcanonical, lastSpelled_of_unnamed h holder, Option.none_or,
      Option.getD_none]

theorem Readable.unnamed_or_lastUnder (h : Readable pairs) (s : Spelling) (r : Region) :
    Unnamed pairs s r ∨ ∃ m, LastUnder pairs s r m := by
  induction pairs with
  | nil => exact .inl nofun
  | cons pair rest ih =>
    obtain ⟨⟨m, hvalue⟩, hvalues⟩ := List.forall_mem_cons.1 h.values
    rcases ih ⟨(List.forall_mem_cons.1 h.keys).2, hvalues⟩ with hunnamed | ⟨m', hlast⟩
    · by_cases hkey : pair.1.Spells s r
      · exact .inr ⟨m, lastUnder_cons_iff.2 (.inr ⟨hkey, hvalue, hunnamed⟩)⟩
      · exact .inl (unnamed_cons_iff.2 ⟨hkey, hunnamed⟩)
    · exact .inr ⟨m', lastUnder_cons_iff.2 (.inl hlast)⟩

theorem Readable.exists_gives (h : Readable pairs) (r : Region) : ∃ m, Gives pairs r m := by
  rcases h.unnamed_or_lastUnder .canonical r with hcanonical | ⟨m, hlast⟩
  · rcases h.unnamed_or_lastUnder .older r with holder | ⟨m, hlast⟩
    · exact ⟨_, .default hcanonical holder⟩
    · exact ⟨m, .older hcanonical hlast⟩
  · exact ⟨m, .canonical hlast⟩

/-- Whether two lists of pairs have the same canonical keys and the same older keys, with their
values, each in the same order. How canonical and older keys follow each other can differ. -/
def Interleaved (pairs pairs' : List (LayoutKey × RegionEntry)) : Prop :=
  ∀ s, pairs'.filter (·.1.spelling = s) = pairs.filter (·.1.spelling = s)

theorem mem_iff_mem_filter (pairs : List (LayoutKey × RegionEntry)) :
    pair ∈ pairs ↔ pair ∈ pairs.filter (·.1.spelling = pair.1.spelling) := by
  simp

theorem unnamed_filter_iff :
    Unnamed (pairs.filter (·.1.spelling = s)) s r ↔ Unnamed pairs s r := by
  constructor
  · intro h pair hmem hkey
    exact h pair (List.mem_filter.2 ⟨hmem, by simpa using hkey.spelling_eq⟩) hkey
  · intro h pair hmem
    exact h pair (List.mem_filter.1 hmem).1

theorem lastUnder_filter_iff :
    LastUnder (pairs.filter (·.1.spelling = s)) s r m ↔ LastUnder pairs s r m := by
  induction pairs with
  | nil => rfl
  | cons pair rest ih =>
    by_cases hspelling : pair.1.spelling = s
    · rw [List.filter_cons_of_pos (by simpa using hspelling), lastUnder_cons_iff,
        lastUnder_cons_iff, ih, unnamed_filter_iff]
    · rw [List.filter_cons_of_neg (by simpa using hspelling), lastUnder_cons_iff, ih]
      exact (or_iff_left fun hlast => hspelling hlast.1.spelling_eq).symm

theorem Interleaved.gives {pairs' : List (LayoutKey × RegionEntry)} (h : Interleaved pairs pairs')
    (hgives : Gives pairs r m) : Gives pairs' r m := by
  have hunnamed (s : Spelling) : Unnamed pairs' s r ↔ Unnamed pairs s r := by
    rw [← unnamed_filter_iff, h s, unnamed_filter_iff]
  have hlastUnder {s : Spelling} {m : MemoryRegion} :
      LastUnder pairs' s r m ↔ LastUnder pairs s r m := by
    rw [← lastUnder_filter_iff, h s, lastUnder_filter_iff]
  cases hgives with
  | canonical hlast => exact .canonical (hlastUnder.2 hlast)
  | older hcanonical hlast => exact .older ((hunnamed _).2 hcanonical) (hlastUnder.2 hlast)
  | default hcanonical holder =>
    exact .default ((hunnamed _).2 hcanonical) ((hunnamed _).2 holder)

theorem Readable.of_interleaved {pairs' : List (LayoutKey × RegionEntry)} (hpairs : Readable pairs)
    (h : Interleaved pairs pairs') : Readable pairs' := by
  have hmem {pair : LayoutKey × RegionEntry} (hpair : pair ∈ pairs') : pair ∈ pairs := by
    rw [mem_iff_mem_filter, h] at hpair
    exact (mem_iff_mem_filter pairs).2 hpair
  exact ⟨fun pair hpair => hpairs.keys pair (hmem hpair),
    fun pair hpair => hpairs.values pair (hmem hpair)⟩

/-- The pairs of a layout that has been completed. -/
def again (completed : List (Region × RegionEntry)) : List (LayoutKey × RegionEntry) :=
  completed.map fun entry => (.region entry.1, entry.2)

theorem readTable_again {completed : List (Region × RegionEntry)}
    (h : ∀ entry ∈ completed, ∃ m, entry.2 = .region m) :
    readTable (again completed) =
      .ok (completed.map fun entry => (.canonical, entry.1, entry.2)) := by
  induction completed with
  | nil => rfl
  | cons entry rest ih =>
    obtain ⟨⟨m, hvalue⟩, hrest⟩ := List.forall_mem_cons.1 h
    obtain ⟨name, value⟩ := entry
    obtain rfl : value = .region m := hvalue
    rw [again, List.map_cons, readTable, ← again, ih hrest]
    rfl

/-- A layout that has a value for every region, each once, is complete as it is. -/
theorem complete_again {α : Type} {completed : List (Region × α)} (default : Region → α)
    (hkeys : (completed.map (·.1)).Nodup) (hall : ∀ r, Assoc.get? r completed ≠ none) :
    complete default (completed.map fun entry => (.canonical, entry.1, entry.2)) = completed := by
  have hcanonical : (completed.map fun entry => (Spelling.canonical, entry.1, entry.2)).filter
      (·.1 = .canonical) = completed.map fun entry => (.canonical, entry.1, entry.2) := by
    refine List.filter_eq_self.2 fun e he => ?_
    obtain ⟨entry, -, rfl⟩ := List.mem_map.1 he
    rfl
  have holder : (completed.map fun entry => (Spelling.canonical, entry.1, entry.2)).filter
      (·.1 = .older) = [] := by
    refine List.filter_eq_nil_iff.2 fun e he => ?_
    obtain ⟨entry, -, rfl⟩ := List.mem_map.1 he
    nofun
  unfold complete
  simp only [hcanonical, holder, List.foldl_nil, List.foldl_map]
  rw [Assoc.foldl_set_of_nodup (by simpa using hkeys), List.nil_append]
  exact List.foldl_fixed' (fun r => Assoc.setAbsent_of_mem (hall r)) _

theorem perm_all_of_get? {α : Type} {completed : List (Region × α)}
    (hkeys : (completed.map (·.1)).Nodup) (hall : ∀ r, Assoc.get? r completed ≠ none) :
    (completed.map (·.1)).Perm Region.all := by
  refine (List.perm_ext_iff_of_nodup hkeys (by decide)).2 fun r => iff_of_true ?_ (Region.mem_all r)
  obtain ⟨value, hvalue⟩ := Option.ne_none_iff_exists'.1 (hall r)
  exact List.mem_map_of_mem (f := (·.1)) (Assoc.mem_of_get? hvalue)

theorem completeTable_again {completed : List (Region × RegionEntry)}
    (hkeys : (completed.map (·.1)).Nodup)
    (hall : ∀ r, ∃ m, Assoc.get? r completed = some (.region m)) :
    completeTable (again completed) = .ok completed := by
  have hregions : ∀ entry ∈ completed, ∃ m, entry.2 = RegionEntry.region m := by
    intro entry hentry
    obtain ⟨m, hm⟩ := hall entry.1
    have hsame := (Assoc.get?_eq_some_iff hkeys).2 hentry
    rw [hm] at hsame
    exact ⟨m, (Option.some.inj hsame).symm⟩
  have hfull (r : Region) : Assoc.get? r completed ≠ none := by
    obtain ⟨m, hm⟩ := hall r
    rw [hm]
    nofun
  rw [completeTable, readTable_again hregions, Reading.map, complete_again _ hkeys hfull]

/-- The layout of a document is completed like one whose keys are all texts. -/
theorem normalize_eq_completeTable (document : List (String × Document)) :
    normalize document = completeTable (document.map fun e => (.text e.1, .other e.2)) := by
  suffices hread : readEntries document =
      readTable (document.map fun e => (.text e.1, .other e.2)) by
    rw [normalize, completeTable, hread]
  induction document with
  | nil => rfl
  | cons e rest ih =>
    obtain ⟨key, value⟩ := e
    rw [readEntries, List.map_cons, readTable, ← ih, readEntry, readKey]
    cases Region.parse? key with
    | none => rfl
    | some region =>
      cases value with
      | object fields =>
        simp only [readValue, Reading.andThen]
        cases MemoryRegion.ofFields fields <;> rfl
      | _ => rfl

/-- What the completion of a layout comes to, if every key names a region and every value is one.

The completed layout has the six regions, each once. Each of them lies where the pairs give it:
under its last canonical key, else under its last older key, else by default. How canonical and
older keys follow each other makes no difference. A completed layout is complete as it is, in its
order. Layouts of documents are completed in this way. -/
theorem completion (h : Readable pairs) :
    ∃ completed, completeTable pairs = .ok completed ∧
      (completed.map (·.1)).Perm Region.all ∧
      (∀ r, ∃ m, Gives pairs r m) ∧
      (∀ r m, Gives pairs r m → Assoc.get? r completed = some (.region m)) ∧
      (∀ pairs', Interleaved pairs pairs' → ∃ completed', completeTable pairs' = .ok completed' ∧
        ∀ r, Assoc.get? r completed' = Assoc.get? r completed) ∧
      completeTable (again completed) = .ok completed ∧
      ∀ document : List (String × Document),
        normalize document = completeTable (document.map fun e => (.text e.1, .other e.2)) := by
  obtain ⟨entries, hread, hentries⟩ := h.exists_readTable
  have hcompleted : completeTable pairs =
      .ok (complete (fun r => .region (defaultOf r)) entries) := by
    rw [completeTable, hread]
    rfl
  have hkeys := nodup_keys_complete (fun r => RegionEntry.region (defaultOf r)) entries
  have hgives {r : Region} {m : MemoryRegion} (hm : Gives pairs r m) :=
    get?_complete_of_gives hentries hm
  have hall (r : Region) := (h.exists_gives r).imp fun _ => hgives
  refine ⟨_, hcompleted, perm_all_of_get? hkeys fun r => ?_, h.exists_gives, fun r m => hgives, ?_,
    completeTable_again hkeys hall, normalize_eq_completeTable⟩
  · obtain ⟨m, hm⟩ := hall r
    rw [hm]
    nofun
  · intro pairs' hpairs'
    obtain ⟨entries', hread', hentries'⟩ := (h.of_interleaved hpairs').exists_readTable
    refine ⟨_, by rw [completeTable, hread']; rfl, fun r => ?_⟩
    obtain ⟨m, hm⟩ := h.exists_gives r
    rw [hgives hm]
    exact get?_complete_of_gives hentries' (hpairs'.gives hm)

/-- Offsets under a mix of older and present names. -/
def mixed : List (LayoutKey × RegionEntry) :=
  [(.text "control", .region ⟨1000, 8⟩), (.text " Marker\t", .region ⟨300, 16⟩),
   (.text "MEMORY", .other (.object [("offset", .int 2000)]))]

/-- The present name counts, although the older one comes last. -/
theorem mixed_completion :
    Readable mixed ∧ ∃ completed, completeTable mixed = .ok completed ∧
      Assoc.get? .marker completed = some (.region ⟨300, 16⟩) ∧
      completeTable (again completed) = .ok completed := by
  have hcontrol : LayoutKey.Spells (.text "control") .older .system :=
    LayoutKey.readKey_eq_ok_iff.1 rfl
  have hmarker : LayoutKey.Spells (.text " Marker\t") .canonical .marker :=
    LayoutKey.readKey_eq_ok_iff.1 rfl
  have hmemory : LayoutKey.Spells (.text "MEMORY") .older .marker :=
    LayoutKey.readKey_eq_ok_iff.1 rfl
  have hreadable : Readable mixed := by
    constructor
    · intro pair hpair
      simp only [mixed, List.mem_cons, List.not_mem_nil, or_false] at hpair
      obtain rfl | rfl | rfl := hpair
      · exact ⟨_, _, hcontrol⟩
      · exact ⟨_, _, hmarker⟩
      · exact ⟨_, _, hmemory⟩
    · intro pair hpair
      simp only [mixed, List.mem_cons, List.not_mem_nil, or_false] at hpair
      obtain rfl | rfl | rfl := hpair
      · exact ⟨_, .region _⟩
      · exact ⟨_, .region _⟩
      · exact ⟨_, .object rfl⟩
  have hlast : LastUnder mixed .canonical .marker ⟨300, 16⟩ := by
    refine ⟨[_], _, [_], rfl, hmarker, .region _, fun pair hpair hkey => ?_⟩
    obtain rfl := List.mem_singleton.1 hpair
    cases (hmemory.unique hkey).1
  obtain ⟨completed, hcompleted, -, -, hgives, -, hagain, -⟩ := completion hreadable
  exact ⟨hreadable, completed, hcompleted, hgives _ _ (.canonical hlast), hagain⟩

end Layout

end LadderMonitor
