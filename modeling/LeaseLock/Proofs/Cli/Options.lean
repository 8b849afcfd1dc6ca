import LeaseLock.Cli.Invocation
import LeaseLock.Proofs.Number.Digits
import Mathlib.Data.List.TakeDrop

namespace LeaseLock.Cli

def Switch.written (s : Switch) (text : String) : String := "--" ++ s.name ++ "=" ++ text

def writtenOut (options : List (Switch × String)) : List String :=
  options.map fun o => o.1.written o.2

def Switch.Accepts (s : Switch) (text : String) : Prop := ∃ value, s.read text = .ok value

namespace Setting

variable {options : List (Switch × String)}

def ofOptions (options : List (Switch × String)) : List Setting :=
  options.filterMap fun o => (o.1.read o.2).toOption.map (Setting.mk o.1)

theorem ofOptions_cons {s : Switch} {text : String} {value : s.Value}
    (h : s.read text = .ok value) (rest : List (Switch × String)) :
    ofOptions ((s, text) :: rest) = ⟨s, value⟩ :: ofOptions rest := by
  rw [ofOptions, List.filterMap_cons, h]
  rfl

theorem ofOptions_append (first second : List (Switch × String)) :
    ofOptions (first ++ second) = ofOptions first ++ ofOptions second := List.filterMap_append

theorem map_switch_ofOptions (h : ∀ o ∈ options, o.1.Accepts o.2) :
    (ofOptions options).map Setting.switch = options.map Prod.fst := by
  induction options with
  | nil => rfl
  | cons o rest ih =>
    obtain ⟨⟨value, hread⟩, hrest⟩ := List.forall_mem_cons.mp h
    rw [ofOptions_cons hread, List.map_cons, List.map_cons, ih hrest]

theorem find?_append (s : Switch) (first second : List Setting) :
    find? s (first ++ second) = Invocation.preferring (find? s second) (find? s first) := by
  induction first with
  | nil => cases hsecond : find? s second <;> simp [find?, hsecond, Invocation.preferring]
  | cons x rest ih =>
    rw [List.cons_append, find?, find?, ih]
    cases find? s second <;> rfl

theorem find?_eq_none {s : Switch} {settings : List Setting} (h : ∀ x ∈ settings, x.switch ≠ s) :
    find? s settings = none := by
  induction settings with
  | nil => rfl
  | cons x rest ih =>
    obtain ⟨hx, hrest⟩ := List.forall_mem_cons.mp h
    rw [find?, ih hrest]
    exact dif_neg hx

theorem find?_ofOptions (h : ∀ o ∈ options, o.1.Accepts o.2) (s : Switch) :
    find? s (ofOptions options) =
      (options.reverse.lookup s).bind fun text => (s.read text).toOption := by
  induction options with
  | nil => rfl
  | cons o rest ih =>
    obtain ⟨⟨value, hread⟩, hrest⟩ := List.forall_mem_cons.mp h
    obtain ⟨other, text⟩ := o
    rw [ofOptions_cons hread, find?, ih hrest, List.reverse_cons, List.lookup_append]
    cases hlater : rest.reverse.lookup s with
    | some later =>
      obtain ⟨before, after, hsplit, -⟩ := List.lookup_eq_some_iff.mp hlater
      have hmem : (s, later) ∈ rest.reverse := by
        rw [hsplit]
        exact List.mem_append_right _ List.mem_cons_self
      obtain ⟨found, hfound⟩ := hrest _ (List.mem_reverse.mp hmem)
      simp only [Option.bind_some, Option.some_or, hfound]
      rfl
    | none =>
      by_cases hsame : other = s
      · subst hsame
        simp [hread, Except.toOption]
      · simp [hsame, List.lookup_cons, beq_false_of_ne (Ne.symm hsame)]

theorem metadata_ofOptions (h : ∀ o ∈ options, o.1.Accepts o.2) :
    metadata (ofOptions options) =
      (options.filter fun o => o.1.isRepeatable).filterMap fun o =>
        (Switch.readEntry o.2).toOption := by
  induction options with
  | nil => rfl
  | cons o rest ih =>
    obtain ⟨⟨value, hread⟩, hrest⟩ := List.forall_mem_cons.mp h
    obtain ⟨s, text⟩ := o
    rw [ofOptions_cons hread]
    cases s with
    | metadata =>
      have hentry : Switch.readEntry text = .ok value := hread
      rw [List.filter_cons_of_pos rfl, List.filterMap_cons, hentry]
      exact congrArg (value :: ·) (ih hrest)
    | _ => exact ih hrest

end Setting

theorem span_run {p : Char → Bool} {cs rest : List Char} (hcs : ∀ c ∈ cs, p c = true)
    (hrest : Stops p rest) : (cs ++ rest).span p = (cs, rest) := by
  rw [List.span_eq_takeWhile_dropWhile, takeWhile_run hcs hrest, dropWhile_run hcs hrest]

theorem toList_written (s : Switch) (text : String) :
    (s.written text).toList = '-' :: '-' :: (s.name.toList ++ '=' :: text.toList) := by
  simp [Switch.written, String.toList_append]

theorem ofText_written (s : Switch) (text : String) :
    Argument.ofText (s.written text) = .long s.name (some text) := by
  have hname : ∀ c ∈ s.name.toList, (decide (c ≠ '=')) = true := by
    cases s <;> simp [Switch.name]
  have hstops : Stops (fun c => decide (c ≠ '=')) ('=' :: text.toList) := by simp
  have hspan := span_run hname hstops
  rw [Argument.ofText, toList_written]
  cases htext : s.name.toList ++ '=' :: text.toList with
  | nil => simp at htext
  | cons c rest =>
    rw [htext] at hspan
    simp only [hspan, String.ofList_toList]

theorem written_ne_of_head {s : Switch} {text word : String} (h : word.toList.head? ≠ some '-') :
    s.written text ≠ word := by
  rintro rfl
  exact h (by rw [toList_written, List.head?_cons])

theorem written_ne_help (s : Switch) (text : String) : s.written text ≠ "help" :=
  written_ne_of_head (by decide)

theorem ofName?_written (s : Switch) (text : String) : Verb.ofName? (s.written text) = none := by
  refine List.find?_eq_none.mpr fun verb _ hname => ?_
  refine written_ne_of_head ?_ (beq_iff_eq.mp hname).symm
  cases verb <;> decide

theorem ofText_of_head {text : String} (h : text.toList.head? ≠ some '-') :
    Argument.ofText text = .plain text := by
  unfold Argument.ofText
  split <;> simp_all

theorem named_name {s : Switch} {scope : Scope} (h : s ∈ scope.switches) :
    scope.named s.name = .switch s := by
  cases scope with
  | outer => cases s <;> first | rfl | simp [Scope.switches, Switch.shared] at h
  | inner verb =>
    cases verb <;> cases s <;>
      first | rfl | simp [Scope.switches, Switch.shared, Switch.ofVerb] at h

def OnceEach (switches : List Switch) : Prop := (switches.filter fun s => !s.isRepeatable).Nodup

theorem OnceEach.sublist {first second : List Switch} (h : OnceEach second)
    (hsublist : first.Sublist second) : OnceEach first := List.Nodup.sublist (hsublist.filter _) h

namespace Scan

variable {scan : Scan} {scope : Scope} {verb : Verb} {options : List (Switch × String)}

def add (scan : Scan) (more : List Setting) : Scan :=
  { scan with settings := scan.settings ++ more }

theorem add_nil (scan : Scan) : scan.add [] = scan := by
  rw [add, List.append_nil]

theorem add_add (scan : Scan) (first second : List Setting) :
    (scan.add first).add second = scan.add (first ++ second) := by
  rw [add, add, add, List.append_assoc]

structure Fits (scope : Scope) (scan : Scan) (options : List (Switch × String)) : Prop where
  unmarked : scan.marked = false
  settled : scan.pending = none
  known : ∀ o ∈ options, o.1 ∈ scope.switches
  accepted : ∀ o ∈ options, o.1.Accepts o.2
  once : OnceEach (scan.settings.map Setting.switch ++ options.map Prod.fst)

theorem take_of_new {s : Switch} {text : String} {value : s.Value} (hread : s.read text = .ok value)
    (hnew : s.isRepeatable = false → ∀ x ∈ scan.settings, x.switch ≠ s) :
    scan.take s text = .ok (scan.add [⟨s, value⟩]) := by
  have hnot : (!s.isRepeatable && scan.settings.any (·.switch == s)) = false := by
    cases hrepeatable : s.isRepeatable with
    | true => rfl
    | false => simpa using hnew hrepeatable
  rw [take, hnot, hread]
  rfl

theorem Fits.takes {s : Switch} {text : String} {rest : List (Switch × String)}
    (h : Fits scope scan ((s, text) :: rest)) (plain : Scan → String → Except Refusal Scan) :
    ∃ value, s.read text = .ok value ∧
      scan.takeArgument scope (s.written text) plain = .ok (scan.add [⟨s, value⟩]) ∧
      Fits scope (scan.add [⟨s, value⟩]) rest := by
  obtain ⟨hunmarked, hsettled, hknown, haccepted, honce⟩ := h
  obtain ⟨value, hread⟩ := haccepted _ List.mem_cons_self
  have hsettle : scan.settle = .ok scan := by rw [settle, hsettled]
  have hnew : s.isRepeatable = false → ∀ x ∈ scan.settings, x.switch ≠ s := by
    rintro hrepeatable x hx rfl
    have hapart := honce
    simp only [OnceEach, List.filter_append, List.map_cons, List.filter_cons, hrepeatable] at hapart
    refine (List.nodup_append.mp hapart).2.2 x.switch ?_ x.switch List.mem_cons_self rfl
    exact List.mem_filter.mpr ⟨List.mem_map_of_mem hx, by simp [hrepeatable]⟩
  refine ⟨value, hread, ?_, hunmarked, hsettled, ?_, ?_, ?_⟩
  · rw [takeArgument, hunmarked, ofText_written]
    simp only [takeLong, named_name (hknown _ List.mem_cons_self), meet, hsettle]
    exact take_of_new hread hnew
  · intro o ho
    exact hknown o (List.mem_cons_of_mem _ ho)
  · intro o ho
    exact haccepted o (List.mem_cons_of_mem _ ho)
  · simpa [add] using honce

theorem Fits.readInner_eq (h : Fits (.inner verb) scan options) (rest : List String) :
    readInner verb scan (writtenOut options ++ rest) =
      readInner verb (scan.add (Setting.ofOptions options)) rest := by
  induction options generalizing scan with
  | nil => simp [writtenOut, Setting.ofOptions, add_nil]
  | cons o more ih =>
    obtain ⟨s, text⟩ := o
    obtain ⟨value, hread, htake, hfits⟩ := h.takes (takePlain (.inner verb))
    rw [writtenOut, List.map_cons, List.cons_append, readInner, htake, Setting.ofOptions_cons hread]
    exact (ih hfits).trans (by rw [add_add, List.singleton_append])

theorem Fits.readOuter_eq (h : Fits .outer scan options) (rest : List String) :
    readOuter scan (writtenOut options ++ rest) =
      readOuter (scan.add (Setting.ofOptions options)) rest := by
  induction options generalizing scan with
  | nil => simp [writtenOut, Setting.ofOptions, add_nil]
  | cons o more ih =>
    obtain ⟨s, text⟩ := o
    obtain ⟨value, hread, htake, hfits⟩ := h.takes refuseVerb
    have hawaits : scan.awaitsValue = false := by rw [awaitsValue, h.settled]
    rw [writtenOut, List.map_cons, List.cons_append, readOuter, h.unmarked, hawaits,
      if_neg (by simp), if_neg (written_ne_help s text), ofName?_written, htake, Setting.ofOptions_cons hread]
    exact (ih hfits).trans (by rw [add_add, List.singleton_append])

theorem readInner_key {key : String} (hunmarked : scan.marked = false)
    (hsettled : scan.pending = none) (hkey : scan.key = none)
    (hplain : key.toList.head? ≠ some '-') (rest : List String) :
    readInner .acquire scan (key :: rest) =
      readInner .acquire { scan with key := some key } rest := by
  obtain ⟨settings, pending, found, marked⟩ := scan
  cases hunmarked
  cases hsettled
  cases hkey
  rw [readInner, takeArgument, if_neg Bool.false_ne_true, ofText_of_head hplain]
  rfl

end Scan

end LeaseLock.Cli
