import LadderMonitor.Polling.SettingsFile
import LadderMonitor.Proofs.Document.Reading
import Mathlib.Data.List.Basic

namespace LadderMonitor

namespace Reading

variable {α β : Type} {sort : Issue → Prop}

/-- A reading that gives a value, or issues the first of which is of some sort. -/
inductive Complete (sort : Issue → Prop) : Reading α → Prop where
  | ok (a : α) : Complete sort (.ok a)
  | refused {issue : Issue} (hissue : sort issue) (rest : List Issue) :
      Complete sort (.refused (issue :: rest))

theorem Complete.seq {f : Reading (α → β)} {x : Reading α} (hf : f.Complete sort)
    (hx : x.Complete sort) : (f <*> x).Complete sort := by
  change (both f x).Complete sort
  cases hf with
  | ok g =>
    cases hx with
    | ok a => exact .ok (g a)
    | refused hissue rest => exact .refused hissue rest
  | refused hissue rest =>
    cases hx with
    | ok a => exact .refused hissue rest
    | refused _ later => exact .refused hissue _

theorem Complete.fmap {x : Reading α} (hx : x.Complete sort) (f : α → β) :
    (f <$> x).Complete sort :=
  Complete.seq (.ok f) hx

theorem Complete.inside {x : Reading α} (hx : x.Complete fun issue => issue.path = [])
    (step : PathStep) : (x.inside step).Complete fun issue => issue.path = [step] := by
  cases hx with
  | ok a => exact .ok a
  | @refused issue hissue rest =>
    exact .refused (congrArg (step :: ·) hissue) _

theorem Complete.mono {x : Reading α} {other : Issue → Prop} (hx : x.Complete sort)
    (h : ∀ issue, sort issue → other issue) : x.Complete other := by
  cases hx with
  | ok a => exact .ok a
  | refused hissue rest => exact .refused (h _ hissue) rest

theorem complete_refuse (complaint : Complaint) :
    (refuse complaint : Reading α).Complete fun issue => issue.path = [] := by
  refine .refused ?_ []
  rfl

end Reading

namespace Document

open Reading

theorem complete_readInteger (d : Document) :
    d.readInteger.Complete fun issue => issue.path = [] := by
  unfold readInteger
  repeat' split
  all_goals first | exact .ok _ | exact complete_refuse _

theorem complete_readPositive (d : Document) :
    d.readPositive.Complete fun issue => issue.path = [] := by
  have hread := complete_readInteger d
  rw [readPositive]
  cases hinteger : d.readInteger with
  | ok n =>
    rw [require, andThen]
    split
    · exact .ok _
    · exact complete_refuse _
  | refused issues =>
    rw [hinteger] at hread
    cases hread with
    | refused hissue rest => exact .refused hissue rest
  | aborted fault =>
    rw [hinteger] at hread
    cases hread

theorem pos_of_readPositive {d : Document} {n : Nat} (h : d.readPositive = .ok n) : 0 < n := by
  obtain ⟨i, hi, rfl⟩ := map_eq_ok_iff.1 h
  obtain ⟨j, -, hj⟩ := andThen_eq_ok_iff.1 hi
  split at hj
  · rename_i hpos
    obtain rfl := Reading.ok.inj hj
    exact Int.pos_iff_toNat_pos.1 (of_decide_eq_true hpos)
  · cases hj

end Document

namespace Fields

variable {α : Type} {fields : Fields} {names : List String} {absent : α}
  {read : Document → Reading α}

theorem mem_of_get? {name : String} {d : Document} (h : fields.get? names = some (name, d)) :
    name ∈ names := by
  obtain ⟨candidate, hmem, hfound⟩ := List.exists_of_findSome?_eq_some h
  obtain ⟨_, -, heq⟩ := Option.map_eq_some_iff.1 hfound
  cases heq
  exact hmem

/-- The issues of an optional field are placed under one of its names. -/
theorem complete_optional (h : ∀ d, (read d).Complete fun issue => issue.path = []) :
    (fields.optional names absent read).Complete fun issue =>
      ∃ name ∈ names, issue.path = [.field name] := by
  rw [optional]
  split
  · rename_i name d hfield
    exact ((h d).inside (.field name)).mono fun issue hpath => ⟨name, mem_of_get? hfield, hpath⟩
  · exact .ok absent

end Fields

namespace Settings

/-- Settings with which the monitor can work. -/
structure Positive (s : Settings) : Prop where
  interval : 0 < s.interval
  gapThreshold : 0 < s.gapThreshold
  maxBatchSize : 0 < s.maxBatchSize
  maxBatchesPerTick : 0 < s.maxBatchesPerTick
  cacheSize : 0 < s.cacheSize

theorem positive_default : Positive {} := by constructor <;> decide

/-- The names of the settings in a file. -/
def names : List String :=
  ["interval_ms", "gap_threshold", "max_batch_size", "max_batches_per_tick", "cache_size"]

theorem pos_of_optional {fields : Fields} {name : List String} {absent n : Nat}
    (habsent : 0 < absent) (h : fields.optional name absent Document.readPositive = .ok n) :
    0 < n := by
  obtain rfl | ⟨d, hread⟩ := Fields.eq_absent_or_exists_of_optional h
  · exact habsent
  · exact Document.pos_of_readPositive hread

theorem positive_of_ofFields {fields : Fields} {s : Settings} (h : ofFields fields = .ok s) :
    s.Positive := by
  obtain ⟨make₄, cacheSize, hmake₄, hcacheSize, rfl⟩ := Reading.seq_eq_ok_iff.1 h
  obtain ⟨make₃, maxBatchesPerTick, hmake₃, hmaxBatches, rfl⟩ := Reading.seq_eq_ok_iff.1 hmake₄
  obtain ⟨make₂, maxBatchSize, hmake₂, hmaxBatchSize, rfl⟩ := Reading.seq_eq_ok_iff.1 hmake₃
  obtain ⟨make₁, gapThreshold, hmake₁, hgapThreshold, rfl⟩ := Reading.seq_eq_ok_iff.1 hmake₂
  obtain ⟨interval, hinterval, rfl⟩ := Reading.fmap_eq_ok_iff.1 hmake₁
  exact ⟨pos_of_optional (by decide) hinterval, pos_of_optional (by decide) hgapThreshold,
    pos_of_optional (by decide) hmaxBatchSize, pos_of_optional (by decide) hmaxBatches,
    pos_of_optional (by decide) hcacheSize⟩

theorem complete_ofFields (fields : Fields) :
    (ofFields fields).Complete fun issue => ∃ name ∈ names, issue.path = [.field name] := by
  have hfield (name : String) (hname : name ∈ names) (absent : Nat) :
      (fields.optional [name] absent Document.readPositive).Complete fun issue =>
        ∃ name ∈ names, issue.path = [.field name] := by
    refine (Fields.complete_optional Document.complete_readPositive).mono ?_
    rintro issue ⟨other, hother, hpath⟩
    obtain rfl := List.mem_singleton.1 hother
    exact ⟨other, hname, hpath⟩
  exact ((((hfield _ (by decide) _).fmap mk).seq (hfield _ (by decide) _)).seq
    (hfield _ (by decide) _)).seq (hfield _ (by decide) _) |>.seq (hfield _ (by decide) _)

/-- The entries of a file in which the settings are looked for: those at the top, unless the key
`monitor` has a mapping of its own. -/
inductive Section : Yaml.Value → List (Yaml.Value × Yaml.Value) → Prop where
  | top {entries : List (Yaml.Value × Yaml.Value)}
      (habsent : Yaml.Value.lookup? "monitor" entries = none) : Section (.mapping entries) entries
  | itself {entries : List (Yaml.Value × Yaml.Value)} {isMapping : Bool}
      (hitself : Yaml.Value.lookup? "monitor" entries = some (.enclosing isMapping)) :
      Section (.mapping entries) entries
  | inner {entries inner : List (Yaml.Value × Yaml.Value)}
      (hinner : Yaml.Value.lookup? "monitor" entries = some (.mapping inner)) :
      Section (.mapping entries) inner

/-- What loading settings from a file can come to. -/
inductive Loads (found : SettingsFile.Found) : Except Fault Settings → Prop where
  | settings {s : Settings} (hpositive : s.Positive) : Loads found (.ok s)
  | refused {key : String} (hkey : key ∈ "configuration" :: "monitor" :: names) (reason : String) :
      Loads found (.error (.settings key reason))
  | undecodable {flaw : Utf8.Flaw} (hfound : found = .undecodable flaw) :
      Loads found (.error (.undecodable flaw))
  | keyNotText {value : Yaml.Value} {entries : List (Yaml.Value × Yaml.Value)}
      (hfound : found = .value value) (hsection : Section value entries)
      (hkey : ∃ e ∈ entries, e.1.isText = false) : Loads found (.error .keyNotText)

theorem ofEntries_of_keyNotText {entries : List (Yaml.Value × Yaml.Value)}
    (hkey : ∃ e ∈ entries, e.1.isText = false) : ofEntries entries = .error .keyNotText := by
  have hany : (entries.any fun e => !e.1.isText) = true := by simpa using hkey
  rw [ofEntries, if_pos hany]

theorem loads_ofEntries {found : SettingsFile.Found} {value : Yaml.Value}
    {entries : List (Yaml.Value × Yaml.Value)} (hfound : found = .value value)
    (hsection : Section value entries) : Loads found (ofEntries entries) := by
  by_cases hkey : ∃ e ∈ entries, e.1.isText = false
  · rw [ofEntries_of_keyNotText hkey]
    exact .keyNotText hfound hsection hkey
  · have hany : ¬ (entries.any fun e => !e.1.isText) = true := by simpa using hkey
    rw [ofEntries, if_neg hany]
    have hcomplete := complete_ofFields (Yaml.Value.toFields entries)
    cases hfields : ofFields (Yaml.Value.toFields entries) with
    | ok s => exact .settings (positive_of_ofFields hfields)
    | refused issues =>
      rw [hfields] at hcomplete
      cases hcomplete with
      | @refused issue hissue rest =>
        obtain ⟨name, hname, hpath⟩ := hissue
        refine .refused ?_ _
        simp only [hpath, Issue.key, PathStep.text, List.isEmpty_cons]
        simp [hname]
    | aborted fault =>
      rw [hfields] at hcomplete
      cases hcomplete

theorem ofFound_of_section {value : Yaml.Value} {entries : List (Yaml.Value × Yaml.Value)}
    (hsection : Section value entries) : ofFound (.value value) = ofEntries entries := by
  cases hsection with
  | top habsent => simp only [ofFound, ofValue, habsent]
  | itself hitself => simp only [ofFound, ofValue, hitself]
  | inner hinner => simp only [ofFound, ofValue, hinner]

theorem loads_ofFound (found : SettingsFile.Found) : Loads found (ofFound found) := by
  cases found with
  | inaccessible => exact .refused (by decide) _
  | malformed => exact .refused (by decide) _
  | undecodable flaw => exact .undecodable rfl
  | value value =>
    rw [ofFound]
    cases value with
    | null => exact .settings positive_default
    | mapping entries =>
      rw [ofValue]
      split
      · rename_i habsent
        exact loads_ofEntries rfl (.top habsent)
      · rename_i hitself
        exact loads_ofEntries rfl (.itself hitself)
      · rename_i hinner
        exact loads_ofEntries rfl (.inner hinner)
      · split
        · exact .refused (by decide) _
        · exact .settings positive_default
    | _ => exact .refused (by decide) _

/-- What loading settings comes to, whatever is found in the file.

Without a file, and from a file that is accepted, all five settings are positive. A file that is not
accepted is refused as a whole, for the key `monitor`, or for the first setting that is wrong. Two
failures are not reported as such, and both occur whenever there is cause: of bytes that are no
text, and of a key that is no text among those where the settings are looked for. -/
theorem load_outcomes (found : SettingsFile.Found) :
    Loads found (ofFound found) ∧
    (∀ flaw, found = .undecodable flaw → ofFound found = .error (.undecodable flaw)) ∧
    (∀ value entries, found = .value value → Section value entries →
      (∃ e ∈ entries, e.1.isText = false) → ofFound found = .error .keyNotText) ∧
    (∃ s, load none = .ok s ∧ s.Positive) ∧
    ∀ file : SettingsFile, file.read = .ok found → load (some file) = ofFound found := by
  refine ⟨loads_ofFound found, ?_, ?_, ⟨{}, rfl, positive_default⟩, ?_⟩
  · rintro flaw rfl
    rfl
  · rintro value entries rfl hsection hkey
    rw [ofFound_of_section hsection, ofEntries_of_keyNotText hkey]
  · intro file hread
    rw [load, ofFile, hread]
    rfl

/-- A file that polls every second. -/
def everySecond : Yaml.Value :=
  .mapping [(.text "monitor", .mapping [(.text "interval_ms", .int 1000)])]

theorem everySecond_load_outcomes :
    ofFound (.value everySecond) = .ok { interval := 1000 } ∧
      ({ interval := 1000 } : Settings).Positive ∧
      ofFound (.value (.mapping [(.bool true, .null)])) = .error .keyNotText := by
  have hload : ofFound (.value everySecond) = .ok { interval := 1000 } := by decide +kernel
  obtain ⟨hloads, -⟩ := load_outcomes (.value everySecond)
  obtain ⟨-, -, hkey, -⟩ := load_outcomes (.value (.mapping [(.bool true, .null)]))
  rw [hload] at hloads
  cases hloads with
  | settings hpositive =>
    exact ⟨hload, hpositive, hkey _ _ rfl (.top rfl) ⟨_, List.mem_singleton_self _, rfl⟩⟩

/-- Neither a file of a byte that begins no character nor one whose key is a number is reported as
one that is not accepted. -/
theorem unreported_loads :
    load (some (.content [0xFF])) = .error (.undecodable .startByte) ∧
      load (some (.content ("1: 2".toList.map fun c => c.toNat.toUInt8))) = .error .keyNotText ∧
      ∀ key reason, Fault.undecodable .startByte ≠ .settings key reason ∧
        Fault.keyNotText ≠ .settings key reason :=
  ⟨rfl, by decide +kernel, fun _ _ => ⟨nofun, nofun⟩⟩

end Settings

end LadderMonitor
