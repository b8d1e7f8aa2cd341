import LadderMonitor.Ladder.Network
import LadderMonitor.Proofs.Document.Reading

namespace LadderMonitor

namespace Wire

/-- A wire written on its own, from one endpoint to another. -/
def between (source target : Document) : Document := .object [("from", source), ("to", target)]

/-- Whether an endpoint is wrapped once more than an endpoint may be: an object whose id is an
object with the id of a block. -/
def wrappedTwice : Document → Bool
  | .object outer =>
    match List.lookup "id" outer with
    | some (.object inner) =>
      match List.lookup "id" inner with
      | some (.text _) => true
      | _ => false
    | _ => false
  | _ => false

variable {d source target : Document} {w : Wire}

theorem readText_endpoint (h : wrappedTwice d = false) :
    Document.readText (endpoint (endpoint d)) = Document.readText (endpoint d) := by
  cases d with
  | object outer =>
    rw [wrappedTwice] at h
    rw [endpoint]
    cases houter : List.lookup "id" outer with
    | none => rfl
    | some value =>
      cases value with
      | object inner =>
        simp only [houter, Option.getD_some, endpoint] at h ⊢
        cases hinner : List.lookup "id" inner with
        | none => rfl
        | some value =>
          rw [hinner] at h
          cases value with
          | text s => cases h
          | _ => rfl
      | _ => rfl
  | _ => rfl

theorem wrappedTwice_of_readText {id : String} (h : Document.readText (endpoint d) = .ok id) :
    wrappedTwice d = false := by
  by_contra htwice
  rw [Bool.not_eq_false] at htwice
  unfold wrappedTwice at htwice
  split at htwice
  · rename_i outer
    split at htwice
    · rename_i inner houter
      rw [endpoint, houter] at h
      cases h
    · cases htwice
  · cases htwice

theorem ofDocument_between : ofDocument (between source target) =
    mk <$> (Document.readText (endpoint source)).inside (.field "from")
      <*> (Document.readText (endpoint target)).inside (.field "to") <*> .ok none := rfl

theorem ofDocument_wireDocument (hsource : wrappedTwice source = false)
    (htarget : wrappedTwice target = false) :
    ofDocument (Network.wireDocument source target) = ofDocument (between source target) := by
  have hunwrapped : Network.wireDocument source target =
      between (endpoint source) (endpoint target) := rfl
  rw [hunwrapped, ofDocument_between, ofDocument_between, readText_endpoint hsource,
    readText_endpoint htarget]

theorem wrappedTwice_of_ofDocument (h : ofDocument (between source target) = .ok w) :
    wrappedTwice source = false ∧ wrappedTwice target = false := by
  rw [ofDocument_between, Reading.seq_eq_ok_iff] at h
  obtain ⟨_, _, hends, -⟩ := h
  obtain ⟨_, _, hsource, htarget, -⟩ := Reading.seq_eq_ok_iff.1 hends
  obtain ⟨_, hsource, -⟩ := Reading.fmap_eq_ok_iff.1 hsource
  exact ⟨wrappedTwice_of_readText (Reading.inside_eq_ok_iff.1 hsource),
    wrappedTwice_of_readText (Reading.inside_eq_ok_iff.1 htarget)⟩

end Wire

namespace Network

/-- One entry for each pair of a source and a destination, sources outermost. -/
def pairs (form : Document → Document → Document) (sources targets : List Document) :
    List Document :=
  sources.flatMap fun source => targets.map (form source)

/-- The endpoints under a key of an entry: those of a list. A value that is absent or counts as
absent has none. -/
def endpoints? : Option Document → Option (List Document)
  | none => some []
  | some (.list items) => some items
  | some d => if d.truth then none else some []

/-- Whether an entry groups wires from some sources to some destinations. -/
structure Groups (entry : Fields) (sources targets : List Document) : Prop where
  keyed : (List.lookup "sources" entry).isSome ∨ (List.lookup "destinations" entry).isSome
  sources : endpoints? (List.lookup "sources" entry) = some sources
  targets : endpoints? (List.lookup "destinations" entry) = some targets

variable {fields entry : Fields} {sources targets entries before after : List Document}

theorem elementsOrNone_of_endpoints? {value : Option Document} {items : List Document}
    (h : endpoints? value = some items) : elementsOrNone value = .ok items := by
  cases value with
  | none => cases h; rfl
  | some d =>
    cases d with
    | list listed =>
      obtain rfl := Option.some.inj h
      cases listed <;> rfl
    | _ =>
      simp only [endpoints?] at h
      split at h
      · cases h
      · rename_i habsent
        cases h
        rw [elementsOrNone, if_neg habsent]

theorem Groups.ungroup (h : Groups entry sources targets) :
    ungroup (.object entry) = .ok (pairs wireDocument sources targets) := by
  have hkeyed : ((List.lookup "sources" entry).isSome ||
      (List.lookup "destinations" entry).isSome) = true := by simpa using h.keyed
  have hgroups : (sources.mapM fun source => do
      let targets ← elementsOrNone (List.lookup "destinations" entry)
      return targets.map (wireDocument source)) =
      Except.ok (sources.map fun source => targets.map (wireDocument source)) := by
    rw [elementsOrNone_of_endpoints? h.targets]
    exact List.mapM_pure
  rw [Network.ungroup, if_pos hkeyed, elementsOrNone_of_endpoints? h.sources]
  exact congrArg (· >>= fun groups => Except.ok groups.flatten) hgroups

/-- The entries of a list with grouped wiring spelled out. -/
def ungroupAll (entries : List Document) : Except Fault (List Document) :=
  List.flatten <$> entries.mapM ungroup

theorem spelledOut_list (entries : List Document) :
    spelledOut (.list entries) = Document.list <$> ungroupAll entries := by
  cases entries with
  | nil => rfl
  | cons first rest =>
    change (List.mapM Network.ungroup (first :: rest) >>= fun groups =>
      Except.ok (Document.list groups.flatten)) = _
    rw [ungroupAll]
    cases List.mapM Network.ungroup (first :: rest) <;> rfl

theorem ungroupAll_append (entries more : List Document) :
    ungroupAll (entries ++ more) =
      (· ++ ·) <$> ungroupAll entries <*> ungroupAll more := by
  unfold ungroupAll
  rw [List.mapM_append]
  cases List.mapM Network.ungroup entries with
  | error fault => rfl
  | ok groups =>
    cases List.mapM Network.ungroup more with
    | error fault => rfl
    | ok moreGroups => exact congrArg Except.ok List.flatten_append

theorem ungroupAll_pairs (sources targets : List Document) :
    ungroupAll (pairs Wire.between sources targets) = .ok (pairs Wire.between sources targets) := by
  have hplain : ∀ entry ∈ pairs Wire.between sources targets, ungroup entry = pure [entry] := by
    intro entry hentry
    obtain ⟨source, -, hpair⟩ := List.mem_flatMap.1 hentry
    obtain ⟨target, -, rfl⟩ := List.mem_map.1 hpair
    rfl
  generalize pairs Wire.between sources targets = entries at hplain
  unfold ungroupAll
  induction entries with
  | nil => rfl
  | cons entry rest ih =>
    obtain ⟨hentry, hrest⟩ := List.forall_mem_cons.1 hplain
    rw [List.mapM_cons, hentry]
    have hgroups := ih hrest
    cases hmapped : List.mapM Network.ungroup rest with
    | error fault =>
      rw [hmapped] at hgroups
      cases hgroups
    | ok groups =>
      rw [hmapped] at hgroups
      exact congrArg (fun wires => Except.ok (entry :: wires)) (Except.ok.inj hgroups)

/-- What is read of a network beside its wires. -/
def readHeader (fields : Fields) : Reading (List Wire → Network) :=
  mk <$> fields.optional ["name"] "" Document.readText
    <*> fields.optional ["comment"] "" Document.readText
    <*> fields.optional ["blocks"] [] (Document.readList Block.ofDocument)

/-- What is read of a network document with a list of entries for its wires. -/
theorem ofDocument_of_entries
    (hentries : List.lookup "connections" fields = some (.list entries)) :
    ofDocument (.object fields) = match ungroupAll entries with
      | .error fault => .aborted fault
      | .ok wires => readHeader fields <*>
        (Document.readItems Wire.ofDocument 0 wires).inside (.field "connections") := by
  change ofFields fields = _
  rw [ofFields, hentries, Option.map_some, spelledOut_list]
  cases ungroupAll entries <;> rfl

/-- A network document with other entries for its wires. -/
def rewire (entries : List Document) (fields : Fields) : Fields :=
  Assoc.set "connections" (.list entries) fields

theorem ofDocument_rewire (entries : List Document) (fields : Fields) :
    ofDocument (.object (rewire entries fields)) = match ungroupAll entries with
      | .error fault => .aborted fault
      | .ok wires => readHeader fields <*>
        (Document.readItems Wire.ofDocument 0 wires).inside (.field "connections") := by
  have hheader : readHeader (rewire entries fields) = readHeader fields := by
    unfold readHeader rewire
    rw [Fields.optional_set (by decide), Fields.optional_set (by decide),
      Fields.optional_set (by decide)]
  rw [ofDocument_of_entries (by rw [rewire, Fields.lookup_set, if_pos rfl]), hheader]

/-- Whether no endpoint of a pair is wrapped twice. -/
def WrappedOnce (sources targets : List Document) : Prop :=
  ∀ source ∈ sources, ∀ target ∈ targets,
    Wire.wrappedTwice source = false ∧ Wire.wrappedTwice target = false

instance : Decidable (WrappedOnce sources targets) :=
  inferInstanceAs (Decidable (∀ source ∈ sources, ∀ target ∈ targets, _))

theorem map_ofDocument_pairs (h : WrappedOnce sources targets) :
    (pairs wireDocument sources targets).map Wire.ofDocument =
      (pairs Wire.between sources targets).map Wire.ofDocument := by
  simp only [pairs, List.map_flatMap, List.map_map]
  refine List.flatMap_congr fun source hsource => List.map_congr_left fun target htarget => ?_
  obtain ⟨honce, honce'⟩ := h source hsource target htarget
  exact Wire.ofDocument_wireDocument honce honce'

/-- Grouped wiring is the same as the wires spelled out, with the same issues if there are any, as
long as no endpoint is wrapped twice. -/
theorem ofDocument_rewire_of_once
    (hentries : List.lookup "connections" fields = some (.list (before ++ .object entry :: after)))
    (hgroups : Groups entry sources targets) (honce : WrappedOnce sources targets) :
    ofDocument (.object (rewire (before ++ pairs Wire.between sources targets ++ after) fields)) =
      ofDocument (.object fields) := by
  have hgrouped : ungroupAll [.object entry] = .ok (pairs wireDocument sources targets) := by
    unfold ungroupAll
    rw [List.mapM_cons, hgroups.ungroup]
    exact congrArg Except.ok (List.append_nil _)
  rw [ofDocument_rewire, ofDocument_of_entries hentries, List.append_cons, ungroupAll_append,
    ungroupAll_append, ungroupAll_append, ungroupAll_append, ungroupAll_pairs, hgrouped]
  -- An entry that cannot be spelled out aborts both readings, before the group or behind it.
  cases ungroupAll before with
  | error fault => rfl
  | ok first =>
    cases ungroupAll after with
    | error fault => rfl
    | ok last =>
      have hread : Document.readItems Wire.ofDocument 0
            (first ++ pairs Wire.between sources targets ++ last) =
          Document.readItems Wire.ofDocument 0
            (first ++ pairs wireDocument sources targets ++ last) := by
        refine Document.readItems_congr ?_ 0
        rw [List.map_append, List.map_append, List.map_append, List.map_append,
          map_ofDocument_pairs honce]
      exact congrArg (fun wires => readHeader fields <*> wires.inside (.field "connections")) hread

/-- A network that is accepted with its wires spelled out has no endpoint that is wrapped twice. -/
theorem once_of_ofDocument_rewire {n : Network}
    (h : ofDocument (.object (rewire (before ++ pairs Wire.between sources targets ++ after)
      fields)) = .ok n) : WrappedOnce sources targets := by
  rw [ofDocument_rewire, ungroupAll_append, ungroupAll_append, ungroupAll_pairs] at h
  cases hbefore : ungroupAll before with
  | error fault =>
    rw [hbefore] at h
    cases h
  | ok first =>
    cases hafter : ungroupAll after with
    | error fault =>
      rw [hbefore, hafter] at h
      cases h
    | ok last =>
      rw [hbefore, hafter] at h
      obtain ⟨_, wires, -, hread, -⟩ := Reading.seq_eq_ok_iff.1 h
      have hwires := Document.exists_of_mem_readItems (Reading.inside_eq_ok_iff.1 hread)
      intro source hsource target htarget
      have hpair : Wire.between source target ∈ pairs Wire.between sources targets :=
        List.mem_flatMap.2 ⟨source, hsource, List.mem_map_of_mem htarget⟩
      obtain ⟨w, hw⟩ := hwires _ (List.mem_append_left last (List.mem_append_right first hpair))
      exact Wire.wrappedTwice_of_ofDocument hw

/-- Grouped wiring stands for its wires spelled out, sources outermost, wherever it stands among the
entries of a network document. As long as no endpoint is wrapped twice, both spellings are read
alike: the same network, the same issues, or the same fault. Otherwise the wires spelled out are not
accepted, though the group may be. -/
theorem grouped_wiring_spelled_out
    (hentries : List.lookup "connections" fields = some (.list (before ++ .object entry :: after)))
    (hgroups : Groups entry sources targets) :
    (∀ n, ofDocument (.object (rewire (before ++ pairs Wire.between sources targets ++ after)
          fields)) = .ok n ↔
        ofDocument (.object fields) = .ok n ∧ WrappedOnce sources targets) ∧
      (WrappedOnce sources targets →
        ofDocument (.object (rewire (before ++ pairs Wire.between sources targets ++ after)
          fields)) = ofDocument (.object fields)) := by
  refine ⟨fun n => ⟨fun hspelled => ?_, ?_⟩, ofDocument_rewire_of_once hentries hgroups⟩
  · have honce := once_of_ofDocument_rewire hspelled
    rw [← ofDocument_rewire_of_once hentries hgroups honce]
    exact ⟨hspelled, honce⟩
  · rintro ⟨hgrouped, honce⟩
    rw [ofDocument_rewire_of_once hentries hgroups honce, hgrouped]

/-- The blocks that wires cross from: one by its id, one by an object with its id. -/
def crossingSources : List Document :=
  [.text "a", .object [("id", .text "b"), ("offset", .int 0)]]

def crossingTargets : List Document := [.text "c", .text "d"]

/-- A group of wires that cross. -/
def crossing : Fields :=
  [("sources", .list crossingSources), ("destinations", .list crossingTargets)]

/-- A wire on its own, and then the wires that cross. -/
def crossingNetwork : Fields :=
  [("connections", .list [Wire.between (.text "s") (.text "a"), .object crossing])]

theorem crossing_spelled_out :
    Groups crossing crossingSources crossingTargets ∧
      WrappedOnce crossingSources crossingTargets ∧
      ofDocument (.object (rewire ([Wire.between (.text "s") (.text "a")] ++
        pairs Wire.between crossingSources crossingTargets ++ []) crossingNetwork)) =
          ofDocument (.object crossingNetwork) ∧
      ofDocument (.object (rewire ([Wire.between (.text "s") (.text "a")] ++
        pairs Wire.between crossingSources crossingTargets ++ []) crossingNetwork)) =
          .ok ⟨"", "", [], [⟨"s", "a", none⟩, ⟨"a", "c", none⟩, ⟨"a", "d", none⟩,
            ⟨"b", "c", none⟩, ⟨"b", "d", none⟩]⟩ := by
  have hgroups : Groups crossing crossingSources crossingTargets := ⟨.inl rfl, rfl, rfl⟩
  have hentries : List.lookup "connections" crossingNetwork =
      some (.list ([Wire.between (.text "s") (.text "a")] ++ .object crossing :: [])) := rfl
  obtain ⟨houtcome, hsame⟩ := grouped_wiring_spelled_out hentries hgroups
  exact ⟨hgroups, by decide, hsame (by decide), (houtcome _).2 ⟨rfl, by decide⟩⟩

/-- A group with an endpoint that is wrapped twice. -/
def wrappedGroup : Fields :=
  [("sources", .list [.object [("id", .object [("id", .text "a")])]]),
    ("destinations", .list [.text "b"])]

/-- A group is accepted whose wires spelled out are refused. -/
theorem wrapped_group_accepted :
    Groups wrappedGroup [.object [("id", .object [("id", .text "a")])]] [.text "b"] ∧
      ofDocument (.object [("connections", .list [.object wrappedGroup])]) =
        .ok ⟨"", "", [], [⟨"a", "b", none⟩]⟩ ∧
      ofDocument (.object (rewire (pairs Wire.between
          [.object [("id", .object [("id", .text "a")])]] [.text "b"])
          [("connections", .list [.object wrappedGroup])])) =
        .refused [⟨[.field "connections", .index 0, .field "from"], .notText⟩] :=
  ⟨⟨.inl rfl, rfl, rfl⟩, rfl, rfl⟩

end Network

end LadderMonitor
