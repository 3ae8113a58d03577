import Libesf.Log.Logger

/-!
# The end of the logger

When the process ends, the instance is destroyed, and with it a fallback file that nothing was written into. What the file holds is told by two positions in a stream that is opened for that: the one it starts with and the one at the end. A position that cannot be had is -1, and a stream that could not be opened has no other.
-/

namespace Libesf.Log

open Transition

/-- What becomes of the stream that `~Logger` opens, and of its `remove`: whether the file can be opened for reading, whether the first position can be had, whether the end can be sought and its position be had, and whether the name can be taken away. -/
structure Reopen where
  opens : Bool
  tells : Bool
  seeks : Bool
  removes : Bool
  deriving DecidableEq, Repr

/-- `fallback.tellg()`, once after the file was opened and once more after `seekg(0, std::ios::end)`. -/
def Reopen.positions (r : Reopen) : Option Str → Int × Int
  | some content =>
    (if r.opens && r.tells then 0 else -1, if r.opens && r.seeks then content.length else -1)
  | none => (-1, -1)

/-- The file was opened, and one of the two positions could be had: a failed stream has -1 twice. -/
def Reopen.tellsContent (r : Reopen) : Bool := r.opens && (r.tells || r.seeks)

theorem Reopen.sub_eq_zero_iff (r : Reopen) {content : Str} (hcontent : content ≠ []) :
    (r.positions (some content)).2 - (r.positions (some content)).1 = 0 ↔ r.tellsContent = false := by
  have hlength := List.length_pos_iff.2 hcontent
  obtain ⟨opens, tells, seeks, removes⟩ := r
  cases opens <;> cases tells <;> cases seeks <;> simp [positions, tellsContent] <;> omega

namespace Logger

/-- `Logger::~Logger`. -/
def destroy (s : Logger) (inst : Instance) (r : Reopen) : Logger :=
  let (l, m) := r.positions (s.files inst.fallbackFn)
  if m - l = 0 && r.removes then
    { s with files := Function.update s.files inst.fallbackFn none } else s

/-- `AutoDeleter::~AutoDeleter`, at the end of the process. -/
def autoDelete (s : Logger) (r : Reopen) : Logger :=
  match s.inst with
  | some inst => s.destroy inst r
  | none => s

/-! ### Files only grow -/

/-- Whatever a file held is still at its beginning. -/
def Grows (files files' : Str → Option Str) : Prop :=
  ∀ fn content, files fn = some content → ∃ content', files' fn = some content' ∧ content <+: content'

theorem Grows.refl (files : Str → Option Str) : Grows files files :=
  fun _ content hcontent => ⟨content, hcontent, List.prefix_refl _⟩

theorem Grows.trans {files files' files'' : Str → Option Str} (h : Grows files files')
    (h' : Grows files' files'') : Grows files files'' := by
  intro fn content hcontent
  obtain ⟨content', hcontent', hprefix⟩ := h fn content hcontent
  obtain ⟨content'', hcontent'', hprefix'⟩ := h' fn content' hcontent'
  exact ⟨content'', hcontent'', hprefix.trans hprefix'⟩

theorem Grows.update (files : Str → Option Str) (fn text : Str) :
    Grows files (Function.update files fn (some ((files fn).getD [] ++ text))) := by
  intro fn' content hcontent
  by_cases hfn : fn' = fn
  · subst hfn
    exact ⟨content ++ text, by rw [Function.update_self, hcontent]; rfl, List.prefix_append _ _⟩
  · exact ⟨content, by rw [Function.update_of_ne hfn, hcontent], List.prefix_refl _⟩

variable {s t : Logger}

theorem grows_construct (fallbackLogFilePrefix : Str) (env : Environment) :
    Grows s.files (s.construct fallbackLogFilePrefix env).files := by
  cases hopens : env.opens with
  | false =>
    simp only [construct, hopens]
    exact .refl _
  | true =>
    simp only [construct, hopens, if_true]
    have hupdate := Grows.update s.files (fallbackLogFilePrefix ++ decimal s.pid) []
    rwa [List.append_nil] at hupdate

theorem grows_append (inst : Instance) (text : Str) (env : Environment) :
    Grows s.files (s.append inst text env).files := by
  rw [append]
  split
  · exact .update _ _ _
  · exact .refl _

theorem grows_initialise (fallbackLogFilePrefix : Str) (env : Environment) :
    Grows s.files (s.initialise fallbackLogFilePrefix env).files := by
  have hconstruct := grows_construct (s := s) fallbackLogFilePrefix env
  rw [initialise]
  cases env.clientThrows with
  | none => exact hconstruct
  | some exc => exact hconstruct.trans (grows_append _ _ _)

theorem grows_logMessage (inst : Instance) (serialized : Str) (env : Environment) :
    Grows s.files (s.logMessage inst serialized env).files := by
  rw [logMessage]
  split
  · exact .refl _
  · exact grows_append _ _ _
  · exact grows_append _ _ _

theorem grows_step {a : LoggerAct} (hstep : s.step a = some t) : Grows s.files t.files := by
  cases move_of_step hstep with
  | call i call hpc => exact .refl _
  | lock i call hpc howner => exact .refl _
  | body i call env hpc =>
    cases call with
    | init fallbackLogFilePrefix => exact grows_initialise _ _
    | logMessage serialized =>
      rw [body]
      split
      · exact grows_construct _ _
      · exact grows_logMessage _ _ _
    | logException exc msgType msgFmt =>
      rw [body]
      split
      · exact grows_construct _ _
      · exact grows_append _ _ _

theorem grows_run {acts : List LoggerAct} (hrun : run step s acts = some t) : Grows s.files t.files :=
  invariant_run (fun u => Grows s.files u.files)
    (fun _ _ _ hgrows hstep => hgrows.trans (grows_step hstep)) (.refl _) hrun

/-! ### Exactly when no content is removed -/

/-- What was in a file at any time of a run is there when the instance has been destroyed. -/
def Keeps (start : Logger) (acts : List LoggerAct) (destroyed : Logger) : Prop :=
  ∀ (earlier later : List LoggerAct) (u : Logger), acts = earlier ++ later →
    run step start earlier = some u →
    ∀ fn content, u.files fn = some content → content ≠ [] →
      ∃ content', destroyed.files fn = some content' ∧ content <+: content'

/-- The file of the instance has no content, or a stream that tells of it, or it cannot be removed. -/
def inspectable (s : Logger) (r : Reopen) : Bool :=
  s.inst.all fun inst => (s.files inst.fallbackFn).all fun content =>
    content.isEmpty || r.tellsContent || !r.removes

variable {inst : Instance} {r : Reopen} {fn content : Str}

theorem files_destroy_of_ne (hfn : fn ≠ inst.fallbackFn) :
    (s.destroy inst r).files fn = s.files fn := by
  simp only [destroy]
  split
  · exact Function.update_of_ne hfn _ _
  · rfl

/-- The destructor leaves a file with content alone if and only if it is told of it, or cannot remove it. -/
theorem files_destroy (hfile : s.files inst.fallbackFn = some content) (hcontent : content ≠ []) :
    (s.destroy inst r).files inst.fallbackFn =
      if (r.tellsContent || !r.removes) = true then some content else none := by
  have hzero := r.sub_eq_zero_iff hcontent
  simp only [destroy, hfile]
  cases htells : r.tellsContent with
  | true =>
    have hne : (r.positions (some content)).2 - (r.positions (some content)).1 ≠ 0 := by
      simp [hzero, htells]
    rw [decide_eq_false hne]
    exact hfile
  | false =>
    rw [decide_eq_true (hzero.2 htells)]
    cases r.removes with
    | true => exact Function.update_self _ _ _
    | false => exact hfile

theorem autoDelete_eq (hinst : s.inst = some inst) (r : Reopen) :
    s.autoDelete r = s.destroy inst r := by
  rw [autoDelete, hinst]

theorem files_autoDelete (hC : s.inspectable r = true) (hfile : s.files fn = some content)
    (hcontent : content ≠ []) : (s.autoDelete r).files fn = some content := by
  cases hinst : s.inst with
  | none =>
    rw [autoDelete, hinst]
    exact hfile
  | some inst =>
    rw [autoDelete_eq hinst]
    by_cases hfn : fn = inst.fallbackFn
    · subst hfn
      have hspared : (r.tellsContent || !r.removes) = true := by
        simpa [inspectable, hinst, hfile, hcontent, Bool.or_assoc] using hC
      rw [files_destroy hfile hcontent, if_pos hspared]
    · exact (files_destroy_of_ne hfn).trans hfile

theorem exists_removed (hC : ¬ s.inspectable r = true) :
    ∃ fn content, s.files fn = some content ∧ content ≠ [] ∧ (s.autoDelete r).files fn = none := by
  cases hinst : s.inst with
  | none => exact absurd (by rw [inspectable, hinst, Option.all_none]) hC
  | some inst =>
    cases hfile : s.files inst.fallbackFn with
    | none => exact absurd (by rw [inspectable, hinst, Option.all_some, hfile, Option.all_none]) hC
    | some content =>
      rw [inspectable, hinst, Option.all_some, hfile, Option.all_some, Bool.or_assoc,
        Bool.or_eq_true, not_or] at hC
      have hcontent : content ≠ [] := fun hnil => hC.1 (List.isEmpty_iff.2 hnil)
      refine ⟨inst.fallbackFn, content, hfile, hcontent, ?_⟩
      rw [autoDelete_eq hinst, files_destroy hfile hcontent, if_neg hC.2]

/-- **No log that has content is deleted.** After any run of the logger, whatever is in a file once is still there when the instance has been destroyed, if and only if the fallback file is empty, or the stream that `~Logger` opens tells of its content, or the file cannot be removed. -/
theorem keeps_iff_inspectable {pid : Nat} {defaultPrefix : Str} {files : Str → Option Str} {n : Nat}
    {acts : List LoggerAct} (hrun : run step (.start pid defaultPrefix files n) acts = some s)
    (r : Reopen) :
    Keeps (.start pid defaultPrefix files n) acts (s.autoDelete r) ↔ s.inspectable r = true := by
  constructor
  · intro hkeeps
    by_contra hC
    obtain ⟨fn, content, hfile, hcontent, hnone⟩ := exists_removed hC
    obtain ⟨content', hcontent', _⟩ :=
      hkeeps acts [] s (List.append_nil _).symm hrun fn content hfile hcontent
    rw [hnone] at hcontent'
    cases hcontent'
  · intro hC earlier later u hacts hearlier fn content hfile hcontent
    rw [hacts] at hrun
    obtain ⟨u', hu', hlater⟩ := run_append_eq_some.1 hrun
    obtain rfl : u = u' := Option.some.inj (hearlier.symm.trans hu')
    obtain ⟨content', hfile', hprefix⟩ := grows_run hlater fn content hfile
    have hcontent' : content' ≠ [] := fun hnil => hcontent (List.prefix_nil.1 (hnil ▸ hprefix))
    exact ⟨content', files_autoDelete hC hfile' hcontent', hprefix⟩

/-- The client's constructor throws in `init`, and a message is logged. -/
def logWithoutServer : List LoggerAct :=
  [.call 0 (.init (ascii "log.")), .lock 0,
    .body 0 { working with clientThrows := some ⟨ascii "std::bad_alloc", []⟩ },
    .call 0 (.logMessage (ascii "a")), .lock 0, .body 0 working]

theorem keeps_iff_inspectable_logWithoutServer :
    ∃ s, run step (.start 7 (ascii "log.") (fun _ => none) 1) logWithoutServer = some s ∧
      Keeps (.start 7 (ascii "log.") (fun _ => none) 1) logWithoutServer
        (s.autoDelete ⟨true, true, true, true⟩) := by
  obtain ⟨s, hrun, hp⟩ := exists_of_any_run step (.start 7 (ascii "log.") (fun _ => none) 1)
    logWithoutServer
    (fun s => s.inspectable ⟨true, true, true, true⟩) (by decide +kernel)
  exact ⟨s, hrun, (keeps_iff_inspectable hrun ⟨true, true, true, true⟩).2 hp⟩

/-- At the end of the process there is no file descriptor left for the stream. -/
theorem logWithoutServer_removed :
    ∃ s content, run step (.start 7 (ascii "log.") (fun _ => none) 1) logWithoutServer = some s ∧
      s.files (ascii "log.7") = some content ∧ noRemoteClient (ascii "a") <:+ content ∧
      (s.autoDelete ⟨false, false, false, true⟩).files (ascii "log.7") = none ∧
      ¬ Keeps (.start 7 (ascii "log.") (fun _ => none) 1) logWithoutServer
        (s.autoDelete ⟨false, false, false, true⟩) := by
  obtain ⟨s, hrun, hp⟩ := exists_of_any_run step (.start 7 (ascii "log.") (fun _ => none) 1)
    logWithoutServer
    (fun s => (s.files (ascii "log.7")).any
      (fun content => (noRemoteClient (ascii "a")).isSuffixOf content) &&
      (s.autoDelete ⟨false, false, false, true⟩).files (ascii "log.7") == none) (by decide +kernel)
  obtain ⟨hany, hnone⟩ := Bool.and_eq_true_iff.1 hp
  obtain ⟨content, hfile, hsuffix⟩ := (Option.any_eq_true _ _).1 hany
  have hrecord : noRemoteClient (ascii "a") <:+ content := List.isSuffixOf_iff_suffix.1 hsuffix
  have hremoved : (s.autoDelete ⟨false, false, false, true⟩).files (ascii "log.7") = none :=
    beq_iff_eq.1 hnone
  refine ⟨s, content, hrun, hfile, hrecord, hremoved, fun hkeeps => ?_⟩
  have hcontent : content ≠ [] := by
    rintro rfl
    exact absurd (List.suffix_nil.1 hrecord) (by decide)
  obtain ⟨content', hcontent', _⟩ :=
    hkeeps logWithoutServer [] s (List.append_nil _).symm hrun _ content hfile hcontent
  rw [hremoved] at hcontent'
  cases hcontent'

end Logger

end Libesf.Log
