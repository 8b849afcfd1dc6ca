import LeaseLock.Proofs.Cli.Options
import LeaseLock.Cli.Run
import LeaseLock.Proofs.Coordinator.ClusterWithProgram
import LeaseLock.Proofs.Coordinator.SingleUse
import LeaseLock.Proofs.Lock.Metadata

namespace LeaseLock.Cli

def entryText (entry : String × String) : String := entry.1 ++ "=" ++ entry.2

theorem readEntry_entryText {entry : String × String} (hname : entry.1 ≠ "")
    (hclear : '=' ∉ entry.1.toList) : Switch.readEntry (entryText entry) = .ok entry := by
  have hrun : ∀ c ∈ entry.1.toList, decide (c ≠ '=') = true := by
    intro c hc
    exact decide_eq_true fun h => hclear (h ▸ hc)
  have hstops : Stops (fun c => decide (c ≠ '=')) ('=' :: entry.2.toList) := by simp
  have hspan := span_run hrun hstops
  have htext : (entryText entry).toList = entry.1.toList ++ '=' :: entry.2.toList := by
    simp [entryText, String.toList_append]
  rw [Switch.readEntry, htext, hspan]
  cases hchars : entry.1.toList with
  | nil => exact absurd (String.toList_eq_nil_iff.mp hchars) hname
  | cons c rest => simp only [← hchars, String.ofList_toList]

structure AcquireTexts where
  key : String
  options : List (Switch × String)
  metadata : List (String × String)

namespace AcquireTexts

def value? (w : AcquireTexts) (s : Switch) : Option s.Value :=
  (w.options.lookup s).bind fun text => (s.read text).toOption

structure IsReadable (w : AcquireTexts) : Prop where
  key : w.key.toList.head? ≠ some '-'
  known : ∀ o ∈ w.options, o.1 ∈ Switch.ofVerb .acquire ∧ o.1 ≠ .metadata
  once : (w.options.map Prod.fst).Nodup
  accepted : ∀ o ∈ w.options, o.1.Accepts o.2
  metadata : ∀ entry ∈ w.metadata, entry.1 ≠ "" ∧ '=' ∉ entry.1.toList

def arguments (w : AcquireTexts) : AcquireArguments where
  key := w.key
  ttl := (w.value? .ttl).getD 15000
  retries := (w.value? .retries).getD 5
  base := (w.value? .base).getD 100
  cap := (w.value? .cap).getD 10000
  growth := (w.value? .growth).getD 2
  jitter := (w.value? .jitter).getD (.ofRatio false 3 10)
  callLimit := (w.value? .callLimit).getD 3000
  metadata := w.metadata

def invocation (w : AcquireTexts) (url : Option String) : Invocation where
  databaseUrl := Invocation.preferring (w.value? .databaseUrl) url
  config := (w.value? .config).getD "conf/leasehold.yml"
  command := .acquire w.arguments

end AcquireTexts

structure Layout where
  outer : List (Switch × String)
  before : List (Switch × String)
  after : List (Switch × String)

namespace Layout

variable {l : Layout} {w : AcquireTexts}

def options (l : Layout) : List (Switch × String) := l.outer ++ (l.before ++ l.after)

def line (l : Layout) (key : String) : List String :=
  writtenOut l.outer ++ "acquire" :: (writtenOut l.before ++ key :: writtenOut l.after)

/-- Only shared switches stand before the verb. Those that stand once come in any order, metadata in
its own. -/
structure Carries (l : Layout) (w : AcquireTexts) : Prop where
  shared : ∀ o ∈ l.outer, o.1 ∈ Switch.shared
  options : (l.options.filter fun o => !o.1.isRepeatable).Perm w.options
  metadata : l.options.filter (fun o => o.1.isRepeatable) =
    w.metadata.map fun entry => (.metadata, entryText entry)

theorem Carries.cases (h : l.Carries w) {o : Switch × String} (ho : o ∈ l.options) :
    o ∈ w.options ∨ ∃ entry ∈ w.metadata, o = (.metadata, entryText entry) := by
  cases hrepeatable : o.1.isRepeatable with
  | false =>
    exact .inl (h.options.mem_iff.mp (List.mem_filter.mpr ⟨ho, by simp [hrepeatable]⟩))
  | true =>
    have hmem : o ∈ l.options.filter fun o => o.1.isRepeatable :=
      List.mem_filter.mpr ⟨ho, hrepeatable⟩
    rw [h.metadata] at hmem
    obtain ⟨entry, hentry, rfl⟩ := List.mem_map.mp hmem
    exact .inr ⟨entry, hentry, rfl⟩

theorem Carries.known (h : l.Carries w) (hw : w.IsReadable) :
    ∀ o ∈ l.options, o.1 ∈ Switch.ofVerb .acquire := by
  intro o ho
  obtain hoption | ⟨entry, -, rfl⟩ := h.cases ho
  · exact (hw.known o hoption).1
  · simp [Switch.ofVerb]

theorem Carries.accepted (h : l.Carries w) (hw : w.IsReadable) :
    ∀ o ∈ l.options, o.1.Accepts o.2 := by
  intro o ho
  obtain hoption | ⟨entry, hentry, rfl⟩ := h.cases ho
  · exact hw.accepted o hoption
  · obtain ⟨hname, hclear⟩ := hw.metadata entry hentry
    exact ⟨entry, readEntry_entryText hname hclear⟩

theorem Carries.once (h : l.Carries w) (hw : w.IsReadable) :
    OnceEach (l.options.map Prod.fst) := by
  rw [OnceEach, List.filter_map]
  exact (h.options.map Prod.fst).nodup_iff.mpr hw.once

theorem lookup_filter_of_kept {options : List (Switch × String)} {s : Switch}
    (hs : s.isRepeatable = false) :
    (options.filter fun o => !o.1.isRepeatable).lookup s = options.lookup s := by
  induction options with
  | nil => rfl
  | cons o rest ih =>
    obtain ⟨other, text⟩ := o
    by_cases hsame : s = other
    · subst hsame
      simp [hs]
    · rw [List.filter_cons, List.lookup_cons, beq_false_of_ne hsame, ← ih]
      split
      · rw [List.lookup_cons, beq_false_of_ne hsame]
      · rfl

theorem Carries.find?_eq (h : l.Carries w) (hw : w.IsReadable) {s : Switch}
    (hs : s.isRepeatable = false) : Setting.find? s (Setting.ofOptions l.options) = w.value? s := by
  -- The reader keeps the last text of a switch, the texts its first: they agree as it stands once.
  have hreverse : (l.options.reverse.filter fun o => !o.1.isRepeatable).Perm w.options := by
    rw [List.filter_reverse]
    exact (List.reverse_perm _).trans h.options
  have hnodup := (hreverse.map Prod.fst).nodup_iff.mpr hw.once
  rw [Setting.find?_ofOptions (h.accepted hw), ← lookup_filter_of_kept hs,
    JsonRecord.lookup_eq_of_perm hreverse hnodup]
  rfl

theorem Carries.metadata_eq (h : l.Carries w) (hw : w.IsReadable) :
    Setting.metadata (Setting.ofOptions (l.before ++ l.after)) = w.metadata := by
  have hinner : ∀ o ∈ l.before ++ l.after, o.1.Accepts o.2 := by
    intro o ho
    exact h.accepted hw o (List.mem_append_right _ ho)
  have houter : l.outer.filter (fun o => o.1.isRepeatable) = [] := by
    refine List.filter_eq_nil_iff.mpr fun o ho hrepeatable => ?_
    have hshared := h.shared o ho
    cases hs : o.1 <;> simp [hs, Switch.shared, Switch.isRepeatable] at hshared hrepeatable
  have hfilter := h.metadata
  rw [Layout.options, List.filter_append, houter, List.nil_append] at hfilter
  rw [Setting.metadata_ofOptions hinner, hfilter, List.filterMap_map]
  refine (List.filterMap_congr fun entry hentry => ?_).trans List.filterMap_some
  obtain ⟨hname, hclear⟩ := hw.metadata entry hentry
  simp only [Function.comp_apply, readEntry_entryText hname hclear]
  rfl

def outerScan (l : Layout) : Scan := Scan.start.add (Setting.ofOptions l.outer)

def innerScan (l : Layout) (key : String) : Scan :=
  { Scan.start.add (Setting.ofOptions (l.before ++ l.after)) with key := some key }

theorem Carries.fits_outer (h : l.Carries w) (hw : w.IsReadable) :
    Scan.start.Fits .outer l.outer := by
  refine ⟨rfl, rfl, h.shared, fun o ho => ?_, ?_⟩
  · exact h.accepted hw o (List.mem_append_left _ ho)
  · exact (h.once hw).sublist ((List.sublist_append_left _ _).map _)

theorem Carries.readOuter_eq (h : l.Carries w) (hw : w.IsReadable) (key : String) :
    Scan.start.readOuter (l.line key) =
      .ok (l.outerScan, some (.acquire, writtenOut l.before ++ key :: writtenOut l.after)) := by
  rw [line, (h.fits_outer hw).readOuter_eq]
  rfl

theorem Carries.fits_before (h : l.Carries w) (hw : w.IsReadable) :
    Scan.start.Fits (.inner .acquire) l.before := by
  refine ⟨rfl, rfl, fun o ho => ?_, fun o ho => ?_, ?_⟩
  · exact h.known hw o (List.mem_append_right _ (List.mem_append_left _ ho))
  · exact h.accepted hw o (List.mem_append_right _ (List.mem_append_left _ ho))
  · refine (h.once hw).sublist (List.Sublist.map _ ?_)
    exact (List.sublist_append_left _ _).trans (List.sublist_append_right _ _)

theorem Carries.fits_after (h : l.Carries w) (hw : w.IsReadable) (key : String) :
    Scan.Fits (.inner .acquire)
      { Scan.start.add (Setting.ofOptions l.before) with key := some key } l.after := by
  refine ⟨rfl, rfl, fun o ho => ?_, fun o ho => ?_, ?_⟩
  · exact h.known hw o (List.mem_append_right _ (List.mem_append_right _ ho))
  · exact h.accepted hw o (List.mem_append_right _ (List.mem_append_right _ ho))
  · have hswitches := Setting.map_switch_ofOptions (h.fits_before hw).accepted
    simp only [Scan.add, Scan.start, List.nil_append, hswitches, ← List.map_append]
    exact (h.once hw).sublist ((List.sublist_append_right _ _).map _)

theorem Carries.readInner_eq (h : l.Carries w) (hw : w.IsReadable) :
    Scan.start.readInner .acquire (writtenOut l.before ++ w.key :: writtenOut l.after) =
      .ok (l.innerScan w.key) := by
  rw [(h.fits_before hw).readInner_eq, Scan.readInner_key rfl rfl rfl hw.key]
  have hafter := (h.fits_after hw w.key).readInner_eq []
  rw [List.append_nil] at hafter
  rw [hafter, Scan.readInner, innerScan, Setting.ofOptions_append]
  rfl

theorem Carries.preferring_eq (h : l.Carries w) (hw : w.IsReadable) {s : Switch}
    (hs : s.isRepeatable = false) :
    Invocation.preferring (Setting.find? s (l.innerScan w.key).settings)
      (Setting.find? s l.outerScan.settings) = w.value? s := by
  rw [← h.find?_eq hw hs, Layout.options, Setting.ofOptions_append, Setting.find?_append]
  rfl

theorem Carries.find?_inner (h : l.Carries w) (hw : w.IsReadable) {s : Switch}
    (hs : s.isRepeatable = false) (hunshared : s ∉ Switch.shared) :
    Setting.find? s (l.innerScan w.key).settings = w.value? s := by
  have hnone : Setting.find? s l.outerScan.settings = none := by
    refine Setting.find?_eq_none fun x hx hsame => hunshared ?_
    have hswitches := Setting.map_switch_ofOptions (h.fits_outer hw).accepted
    have hmem : x.switch ∈ l.outer.map Prod.fst := hswitches ▸ List.mem_map_of_mem hx
    obtain ⟨o, ho, hswitch⟩ := List.mem_map.mp hmem
    exact hsame ▸ hswitch ▸ h.shared o ho
  rw [← h.preferring_eq hw hs, hnone]
  cases Setting.find? s (l.innerScan w.key).settings <;> rfl

theorem Carries.ofScan_eq (h : l.Carries w) (hw : w.IsReadable) :
    Command.ofScan .acquire (l.innerScan w.key) = .ok (.acquire w.arguments) := by
  have hmetadata : Setting.metadata (l.innerScan w.key).settings = w.metadata := h.metadata_eq hw
  have hkey : (l.innerScan w.key).key = some w.key := rfl
  simp (disch := decide) only [Command.ofScan, hmetadata, hkey, h.find?_inner hw]
  rfl

theorem Carries.ofArguments_eq (h : l.Carries w) (hw : w.IsReadable) (url : Option String) :
    Invocation.ofArguments url (l.line w.key) = .ok (w.invocation url) := by
  have hsettle : l.outerScan.settle = .ok l.outerScan := rfl
  have hurl := h.preferring_eq hw (s := .databaseUrl) rfl
  have hconfig := h.preferring_eq hw (s := .config) rfl
  simp only [Invocation.ofArguments, h.readOuter_eq hw, h.readInner_eq hw, h.ofScan_eq hw, hsettle,
    bind, Except.bind, hurl, hconfig]
  rfl

end Layout

/-- The numbers are those of the arguments, all times being whole milliseconds. Each metadata name
stands once, in whatever order, with the last text given for it. -/
structure AcquireArguments.Spells (a : AcquireArguments) (terms : Terms) : Prop where
  ttl : terms.ttl.nanos = a.ttl.toNat * 1000000
  retries : terms.backoff.retries = a.retries
  base : terms.backoff.base.nanos = a.base.toNat * 1000000
  cap : terms.backoff.cap.nanos = a.cap.toNat * 1000000
  growth : terms.backoff.growth = a.growth
  jitter : terms.backoff.jitter = a.jitter
  callLimit : terms.callLimit.nanos = a.callLimit.toNat * 1000000
  distinct : terms.metadata.Distinct
  metadata : ∀ name, terms.metadata.get? name = a.metadata.reverse.lookup name

theorem AcquireArguments.spells_terms (a : AcquireArguments) : a.Spells a.terms :=
  ⟨rfl, rfl, rfl, rfl, rfl, rfl, rfl, Metadata.distinct_ofList _, Metadata.get?_ofList _⟩

theorem AcquireArguments.Spells.millis_ttl {a : AcquireArguments} {terms : Terms}
    (h : a.Spells terms) : terms.ttl.millis = a.ttl.toNat := by
  rw [Span.millis, h.ttl]
  exact Nat.mul_div_cancel _ (by decide)

namespace AcquireTexts

def IsWrittenAs (w : AcquireTexts) (line : List String) : Prop :=
  ∃ l : Layout, l.Carries w ∧ line = l.line w.key

def program (w : AcquireTexts) (terms : Terms) : Program Ending := do
  return .ofOutcome .token (← Coordinator.acquire w.key terms)

/-- Whenever the program answers with a token, a lease was on record at its grant that has the time
to live given, and a text that is read back as the metadata. -/
def Records (w : AcquireTexts) (program : Program Ending) : Prop :=
  ∀ b : Backing, b.IsOpened → ∀ members owner moves token,
    ((ClusterWithProgram.opened members b owner program).run moves).answer? =
      some (.answered (.token token)) →
    token.key = w.key ∧ ∃ earlier input later lease, moves = earlier ++ .advance input :: later ∧
      ((ClusterWithProgram.opened members b owner program).run
        (earlier ++ [.advance input])).cluster.store.tenure? w.key = some lease ∧
      lease.IsOwnedBy token.leaseId token.nonce ∧ lease.ttl = w.arguments.ttl.toNat ∧
      ∃ json, Json.ofText? lease.metadata = some json ∧
        json.IsMap fun name => w.metadata.reverse.lookup name

theorem ofOutcome_token_eq {outcome : Outcome Token} {token : Token}
    (h : Ending.ofOutcome Answer.token outcome = .answered (.token token)) :
    outcome = .ok token := by
  cases outcome with
  | ok other =>
    cases h
    rfl
  | failed fault => cases h
  | overflow => cases h

theorem records_program (w : AcquireTexts) {terms : Terms} (hspells : w.arguments.Spells terms) :
    w.Records (w.program terms) := by
  intro b hopened members owner moves token hanswered
  obtain ⟨hkey, earlier, input, later, lease, hmoves, hlease, howned, httl, hmetadata⟩ :=
    ClusterWithProgram.recorded_of_answered hopened (Ending.ofOutcome Answer.token) rfl
      (fun _ => ofOutcome_token_eq) hanswered
  refine ⟨hkey, earlier, input, later, lease, hmoves, hlease, howned, ?_, ?_⟩
  · rw [httl, hspells.millis_ttl]
  · obtain ⟨json, hjson, hmap⟩ := hspells.distinct.ofText?_text
    rw [funext hspells.metadata] at hmap
    exact ⟨json, hmetadata ▸ hjson, hmap⟩

/-- All lines with the same texts are read as one command. It acquires the key on terms that have the
numbers given and the last text given for each metadata name, and its leases are on record so,
whatever order the metadata are kept in. -/
theorem acquire_in_any_order {w : AcquireTexts} (h : w.IsReadable) {line : List String}
    (hline : w.IsWrittenAs line) (url : Option String) :
    Invocation.ofArguments url line = .ok (w.invocation url) ∧
      w.arguments.Spells w.arguments.terms ∧
      (∀ c, (w.invocation url).command.run c = w.program w.arguments.terms) ∧
      (∀ c, w.Records ((w.invocation url).command.run c)) ∧
      ∀ terms, w.arguments.Spells terms → w.Records (w.program terms) := by
  obtain ⟨l, hcarries, rfl⟩ := hline
  have hspells := w.arguments.spells_terms
  exact ⟨hcarries.ofArguments_eq h url, hspells, fun _ => rfl, fun _ => w.records_program hspells,
    fun _ => w.records_program⟩

def labelled : AcquireTexts where
  key := "job"
  options := [(.ttl, "2500"), (.jitter, "0.5"), (.databaseUrl, "postgres://db/a=b")]
  metadata := [("team", "a=b"), ("note", "\"ä\"\n"), ("team", "")]

def labelledLine : List String :=
  ["--db-url=postgres://db/a=b", "acquire", "--meta=team=a=b", "--jitter=0.5",
    "--meta=note=\"ä\"\n", "job", "--meta=team=", "--ttl-ms=2500"]

def labelledMoves : List ClusterWithProgram.Move :=
  ["a", "b", "c", "d", "e", "f", "g", "h", "i", "j"].map fun id =>
    .advance (OpenCluster.ordinaryInput id .answered)

def labelledToken : Token := ⟨"job", "b", ⟨1700000002, 510000000, by decide, by decide⟩, "c"⟩

theorem isReadable_labelled : labelled.IsReadable := by
  refine ⟨by decide, by decide, by decide, ?_, by decide⟩
  intro o ho
  simp only [labelled, List.mem_cons, List.not_mem_nil, or_false] at ho
  obtain rfl | rfl | rfl := ho
  · exact ⟨2500, by decide +kernel⟩
  · exact ⟨.ofRatio false 1 2, by decide +kernel⟩
  · exact ⟨_, rfl⟩

theorem isWrittenAs_labelledLine : labelled.IsWrittenAs labelledLine := by
  refine ⟨⟨[(.databaseUrl, "postgres://db/a=b")],
    [(.metadata, "team=a=b"), (.jitter, "0.5"), (.metadata, "note=\"ä\"\n")],
    [(.metadata, "team="), (.ttl, "2500")]⟩, ⟨by decide, by decide, by decide⟩, by decide⟩

theorem acquire_in_any_order_labelled :
    labelled.IsReadable ∧ labelled.IsWrittenAs labelledLine ∧
      Invocation.ofArguments none labelledLine = .ok (labelled.invocation none) ∧
      labelled.arguments.Spells labelled.arguments.terms ∧ (Backing.memory .new).IsOpened ∧
      ((ClusterWithProgram.opened (fun _ => .standard) (.memory .new) 0
        ((labelled.invocation none).command.run .standard)).run labelledMoves).answer? =
          some (.answered (.token labelledToken)) ∧
      ∃ (lease : Tenure) (json : Json), lease.ttl = 2500 ∧ Json.ofText? lease.metadata = some json ∧
        json.IsMap fun name => labelled.metadata.reverse.lookup name := by
  obtain ⟨hread, hspells, -, hrecords, -⟩ :=
    acquire_in_any_order isReadable_labelled isWrittenAs_labelledLine none
  have hanswered : ((ClusterWithProgram.opened (fun _ => .standard) (.memory .new) 0
      ((labelled.invocation none).command.run .standard)).run labelledMoves).answer? =
        some (.answered (.token labelledToken)) := by decide +kernel
  refine ⟨isReadable_labelled, isWrittenAs_labelledLine, hread, hspells, rfl, hanswered, ?_⟩
  obtain ⟨-, -, -, -, lease, -, -, -, httl, json, hjson, hmap⟩ :=
    hrecords .standard (.memory .new) rfl _ _ _ _ hanswered
  exact ⟨lease, json, httl, hjson, hmap⟩

end AcquireTexts

end LeaseLock.Cli
