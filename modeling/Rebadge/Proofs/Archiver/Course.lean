import Rebadge.Archiver.External
import Rebadge.Proofs.Alike
import Rebadge.Proofs.Disk.Staging

/-!
# The course of the programs

An act that is to start programs has a plan: what is asked of each start, in order. Whatever the
programs do, those that are started meet the plan from its beginning; when one ends with another
code than zero, none follows and this is the failure of the act (`Course`). Programs may rename the
directory that others work in, and then relative paths have other absolute forms from there on;
where none does, all starts find the same working directory (`Performs.stays`). Acts that start
nothing take no part (`Quiet.performs`), and the plans of two acts that follow one another are put
together (`Performs.bind`).
-/

namespace Rebadge

/-! ## Programs and plans -/

/-- The programs leave a file tree and a working directory with names. They may rename it. -/
structure Toolbox.Sound (toolbox : Toolbox) : Prop where
  wellFormed : ∀ d i d' exit, toolbox d i = .ok (d', exit) → d.tree.WellFormed →
    d'.tree.WellFormed
  place : ∀ d i d' exit, toolbox d i = .ok (d', exit) → Tree.IsPlace d.cwd → Tree.IsPlace d'.cwd

/-- No program renames the directory that others work in. -/
def Toolbox.Stays (toolbox : Toolbox) : Prop :=
  ∀ d i d' exit, toolbox d i = .ok (d', exit) → d'.cwd = d.cwd

/-- The program that was started ended in this way. -/
def Toolbox.Ends (toolbox : Toolbox) (st : Start) (exit : Exit) : Prop :=
  ∃ d, toolbox st.disk st.invocation = .ok (d, exit)

/-- What is asked of a program that is started. -/
abbrev Step := Start → Prop

/-- The failure is not that of a program. -/
def Failure.IsOwn : Failure → Prop
  | command .. => False
  | _ => True

/-- The programs meet the steps of a plan, one each, and all end with code zero. -/
structure Taken (toolbox : Toolbox) (plan : List Step) (starts : List Start) : Prop where
  steps : List.Forall₂ (fun step st => step st) plan starts
  exits : ∀ st ∈ starts, toolbox.Ends st (.code 0)

/-- **A course** that the programs of a plan can take, with what comes of it. -/
inductive Course {α : Type} (toolbox : Toolbox) :
    List Step → List Start → Except Failure α → Prop where
  /-- All were started and ended with code zero. -/
  | finished {plan : List Step} {starts : List Start} (a : α) (h : Taken toolbox plan starts) :
    Course toolbox plan starts (.ok a)
  /-- The first ones were, and then something else failed. -/
  | stopped {done rest : List Step} {starts : List Start} {e : Failure}
      (h : Taken toolbox done starts) (he : e.IsOwn) :
    Course toolbox (done ++ rest) starts (.error e)
  /-- The last one that was started ended otherwise, which is the failure. -/
  | refused {done rest : List Step} {step : Step} {starts : List Start} {st : Start} {exit : Exit}
    (h : Taken toolbox done starts) (hstep : step st) (hexit : toolbox.Ends st exit)
    (hne : exit ≠ .code 0) :
    Course toolbox (done ++ step :: rest) (starts ++ [st])
    (.error (.command st.invocation.line exit.toInt))

variable {α β ι : Type} {toolbox : Toolbox} {plan plan' : List Step} {starts starts' : List Start}

theorem Taken.nil (toolbox : Toolbox) : Taken toolbox [] [] := ⟨.nil, by simp⟩

theorem Taken.append (h : Taken toolbox plan starts) (h' : Taken toolbox plan' starts') :
    Taken toolbox (plan ++ plan') (starts ++ starts') where
  steps := List.rel_append h.steps h'.steps
  exits := by
    intro st hst
    rcases List.mem_append.1 hst with hst | hst
    · exact h.exits st hst
    · exact h'.exits st hst

theorem Taken.meets (h : Taken toolbox plan starts) {st : Start} (hst : st ∈ starts) :
    ∃ step ∈ plan, step st := by
  have hsteps := h.steps
  clear h
  induction hsteps with
  | nil => exact absurd hst List.not_mem_nil
  | @cons step st' plan starts hfirst _ ih =>
    rcases List.mem_cons.1 hst with rfl | hst
    · exact ⟨step, List.mem_cons_self, hfirst⟩
    · obtain ⟨step', hmem, hmeets⟩ := ih hst
      exact ⟨step', List.mem_cons_of_mem _ hmem, hmeets⟩

theorem Course.meets {x : Except Failure α} (h : Course toolbox plan starts x) {st : Start}
    (hst : st ∈ starts) : ∃ step ∈ plan, step st := by
  cases h with
  | finished a h => exact h.meets hst
  | stopped h he =>
    obtain ⟨step, hmem, hmeets⟩ := h.meets hst
    exact ⟨step, List.mem_append_left _ hmem, hmeets⟩
  | @refused done rest step _ _ _ h hstep hexit hne =>
    rcases List.mem_append.1 hst with hst | hst
    · obtain ⟨step, hmem, hmeets⟩ := h.meets hst
      exact ⟨step, List.mem_append_left _ hmem, hmeets⟩
    · rw [List.mem_singleton.1 hst]
      exact ⟨step, List.mem_append_right _ List.mem_cons_self, hstep⟩

theorem Course.stopped_at_once {e : Failure} (he : e.IsOwn) :
    Course (α := α) toolbox plan [] (.error e) :=
  .stopped (.nil toolbox) he

theorem Course.refused_at_once {step : Step} {st : Start} {exit : Exit} (hstep : step st)
    (hexit : toolbox.Ends st exit) (hne : exit ≠ .code 0) :
    Course (α := α) toolbox [step] [st] (.error (.command st.invocation.line exit.toInt)) :=
  .refused (.nil toolbox) hstep hexit hne

theorem Course.taken {a : α} (h : Course toolbox plan starts (.ok a)) :
    Taken toolbox plan starts := by
  cases h
  assumption

theorem Course.prepend {x : Except Failure α} (h : Taken toolbox plan starts)
    (h' : Course toolbox plan' starts' x) :
    Course toolbox (plan ++ plan') (starts ++ starts') x := by
  cases h' with
  | finished a h' => exact .finished a (h.append h')
  | stopped h' he =>
    rw [← List.append_assoc]
    exact .stopped (h.append h') he
  | refused h' hstep hexit hne =>
    rw [← List.append_assoc, ← List.append_assoc]
    exact .refused (h.append h') hstep hexit hne

theorem Course.of_error {e : Failure} (h : Course (α := α) toolbox plan starts (.error e))
    (plan' : List Step) : Course (α := β) toolbox (plan ++ plan') starts (.error e) := by
  cases h with
  | stopped h he =>
    rw [List.append_assoc]
    exact .stopped h he
  | refused h hstep hexit hne =>
    rw [List.append_assoc, List.cons_append]
    exact .refused h hstep hexit hne

namespace Disk

variable {d d' : Disk} {path : String} {content : Content}

theorem cwd_write (h : d.write path content = .ok d') : d'.cwd = d.cwd := by
  obtain ⟨k, -, ⟨-, -, rfl⟩ | ⟨c, m, -, rfl⟩⟩ := write_ok.1 h <;> rfl

theorem cwd_makeDir (h : d.makeDir path = .ok d') : d'.cwd = d.cwd := by
  obtain ⟨k, -, -, rfl⟩ := makeDir_ok h
  rfl

theorem cwd_ensureDir (d : Disk) (path : String) : (d.ensureDir path).1.cwd = d.cwd := by
  unfold ensureDir
  split
  · next h => exact cwd_makeDir h
  · rfl

theorem cwd_ensureAncestors (d : Disk) (paths : List String) :
    (d.ensureAncestors paths).1.cwd = d.cwd := by
  induction paths with
  | nil => rfl
  | cons path above ih =>
    rw [ensureAncestors]
    split
    · rfl
    split
    · split
      · next d' heq =>
        rw [heq] at ih
        exact (cwd_ensureDir d' path).trans ih
      · exact ih
    · exact cwd_ensureDir d path

theorem cwd_ensureDirs (d : Disk) (path : String) : (d.ensureDirs path).1.cwd = d.cwd :=
  cwd_ensureAncestors d _

end Disk

namespace Act

variable {w w' : Workspace} {act : Act α} {f : α → Act β}

/-! ## Acts that start programs -/

/-- The programs that the act starts take a course of the plan. They all find the working directory
that the act found, unless one of them renames it. -/
structure Performs (toolbox : Toolbox) (plan : List Step) (act : Act α) (w : Workspace) : Prop where
  course : ∃ starts, (leaves act w).started = w.started ++ starts ∧
    Course toolbox plan starts (outcome act w) ∧
    (toolbox.Stays → ∀ st ∈ starts, st.disk.cwd = w.disk.cwd)
  stays : toolbox.Stays → (leaves act w).disk.cwd = w.disk.cwd

/-- **The plans** of two acts that follow one another are put together. -/
theorem Performs.bind (h : Performs toolbox plan act w)
    (hf : ∀ a w', act w = .ok a w' → Performs toolbox plan' (f a) w') :
    Performs toolbox (plan ++ plan') (act >>= f) w := by
  obtain ⟨⟨starts, hstarted, hcourse, hsame⟩, hcwd⟩ := h
  cases hact : act w with
  | ok a w' =>
    obtain ⟨⟨starts', hstarted', hcourse', hsame'⟩, hcwd'⟩ := hf a w' hact
    have houtcome : outcome act w = .ok a := by rw [outcome, hact]
    rw [leaves_of_ok hact] at hcwd hstarted
    rw [houtcome] at hcourse
    refine ⟨⟨starts ++ starts', ?_, ?_, fun hstays st hst => ?_⟩, fun hstays => ?_⟩
    · rw [leaves_bind_of_ok hact, hstarted', hstarted, List.append_assoc]
    · rw [outcome_bind_of_ok hact]
      exact .prepend hcourse.taken hcourse'
    · rcases List.mem_append.1 hst with hst | hst
      · exact hsame hstays st hst
      · exact (hsame' hstays st hst).trans (hcwd hstays)
    · rw [leaves_bind_of_ok hact, hcwd' hstays, hcwd hstays]
  | error e w' =>
    have houtcome : outcome act w = .error e := by rw [outcome, hact]
    rw [leaves_of_error hact] at hcwd hstarted
    rw [houtcome] at hcourse
    refine ⟨⟨starts, ?_, ?_, hsame⟩, fun hstays => ?_⟩
    · rw [leaves_bind_of_error hact, hstarted]
    · rw [outcome_bind_of_error hact]
      exact hcourse.of_error plan'
    · rw [leaves_bind_of_error hact, hcwd hstays]

theorem Performs.cons {step : Step} (h : Performs toolbox [step] act w)
    (hf : ∀ a w', act w = .ok a w' → Performs toolbox plan (f a) w') :
    Performs toolbox (step :: plan) (act >>= f) w :=
  h.bind hf

/-- The plan of what follows may depend on what was found, as long as there is one. -/
theorem Performs.bind_exists {σ : Type} [Nonempty σ] {plans : σ → List Step}
    (h : Performs toolbox plan act w)
    (hf : ∀ a w', act w = .ok a w' → ∃ x, Performs toolbox (plans x) (f a) w') :
    ∃ x, Performs toolbox (plan ++ plans x) (act >>= f) w := by
  cases hact : act w with
  | ok a w' =>
    obtain ⟨x, hx⟩ := hf a w' hact
    refine ⟨x, h.bind fun a' w'' hact' => ?_⟩
    rw [hact] at hact'
    cases hact'
    exact hx
  | error e w' =>
    refine ⟨Classical.arbitrary σ, h.bind fun a' w'' hact' => ?_⟩
    rw [hact] at hact'
    exact absurd hact' (by simp)

theorem performs_forM {g : ι → Act Unit} {step : ι → Step} {items : List ι} {P : Workspace → Prop}
    (hg : ∀ x ∈ items, ∀ w, P w → Performs toolbox [step x] (g x) w ∧ ∀ w', g x w = .ok () w' →
      P w') (hw : P w) :
    Performs toolbox (items.map step) (items.forM g) w := by
  induction items generalizing w with
  | nil =>
    exact ⟨⟨[], (List.append_nil _).symm, .finished () (.nil toolbox), by simp⟩, fun _ => rfl⟩
  | cons x items ih =>
    obtain ⟨hx, hitems⟩ := List.forall_mem_cons.1 hg
    obtain ⟨hfirst, hnext⟩ := hx w hw
    exact hfirst.bind fun _ w' hok => ih hitems (hnext w' hok)

/-! ## Acts that start none -/

/-- The act starts no program, whatever it meets, and does not fail like one. -/
structure Quiet (act : Act α) : Prop where
  keeps : ∀ started cwd, Keeps (fun w => w.started = started ∧ w.disk.cwd = cwd) act
  own : ∀ w e, outcome act w = .error e → e.IsOwn

theorem Quiet.performs (h : Quiet act) (w : Workspace) : Performs toolbox [] act w := by
  obtain ⟨hstarted, hcwd⟩ := h.keeps _ _ w ⟨rfl, rfl⟩
  refine ⟨⟨[], by rw [hstarted, List.append_nil], ?_, by simp⟩, fun _ => hcwd⟩
  cases hout : outcome act w with
  | ok a => exact .finished a (.nil toolbox)
  | error e => exact .stopped_at_once (h.own w e hout)

theorem Performs.after (hact : Quiet act)
    (hf : ∀ a w', act w = .ok a w' → Performs toolbox plan (f a) w') :
    Performs toolbox plan (act >>= f) w :=
  (hact.performs w).bind hf

theorem Quiet.bind (h : Quiet act) (hf : ∀ a, Quiet (f a)) : Quiet (act >>= f) where
  keeps := fun started cwd => (h.keeps started cwd).bind fun a => (hf a).keeps started cwd
  own := by
    intro w e he
    cases hact : act w with
    | ok a w' =>
      rw [outcome_bind_of_ok hact] at he
      exact (hf a).own w' e he
    | error e' w' =>
      rw [outcome_bind_of_error hact] at he
      obtain rfl := Except.error.inj he
      exact h.own w e' (by rw [outcome, hact])

/-- A result that is no program's failure. -/
def HasOwn (x : Except Failure α) : Prop := ∀ e, x = .error e → e.IsOwn

theorem hasOwn_ok (a : α) : HasOwn (.ok a : Except Failure α) := by
  intro e he
  exact absurd he (by simp)

theorem hasOwn_error {e : Failure} (h : e.IsOwn) : HasOwn (.error e : Except Failure α) := by
  intro e' he
  obtain rfl := Except.error.inj he
  exact h

theorem hasOwn_mapError {ε : Type} {g : ε → Failure} (h : ∀ e, (g e).IsOwn) (x : Except ε α) :
    HasOwn (x.mapError g) := by
  cases x with
  | ok a => exact hasOwn_ok a
  | error e => exact hasOwn_error (h e)

theorem hasOwn_io (x : Except IoError α) : HasOwn (x.mapError .io) :=
  hasOwn_mapError (g := .io) (fun _ => trivial) x

theorem HasOwn.bind {x : Except Failure α} {g : α → Except Failure β} (h : HasOwn x)
    (hg : ∀ a, HasOwn (g a)) : HasOwn (x >>= g) := by
  cases x with
  | ok a => exact hg a
  | error e => exact hasOwn_error (h e rfl)

theorem HasOwn.map {x : Except Failure α} (h : HasOwn x) (g : α → β) : HasOwn (x.map g) := by
  cases x with
  | ok a => exact hasOwn_ok (g a)
  | error e => exact hasOwn_error (h e rfl)

theorem hasOwn_mapM {g : ι → Except Failure α} {items : List ι} (h : ∀ x ∈ items, HasOwn (g x)) :
    HasOwn (items.mapM g) := by
  induction items with
  | nil => exact hasOwn_ok []
  | cons x items ih =>
    obtain ⟨hx, hitems⟩ := List.forall_mem_cons.1 h
    rw [List.mapM_cons]
    exact hx.bind fun a => (ih hitems).bind fun rest => hasOwn_ok (a :: rest)

theorem quiet_ofExcept {x : Except Failure α} (h : HasOwn x) : Quiet (ofExcept x) where
  keeps := fun _ _ => keeps_ofExcept x
  own := fun w e he => h e (outcome_ofExcept x w ▸ he)

theorem quiet_pure (a : α) : Quiet (pure a : Act α) := quiet_ofExcept (hasOwn_ok a)

theorem quiet_throw {e : Failure} (h : e.IsOwn) : Quiet (throw e : Act α) :=
  quiet_ofExcept (hasOwn_error h)

theorem quiet_disk : Quiet disk where
  keeps := fun _ _ => keeps_disk
  own := fun _ _ he => nomatch he

theorem quiet_look (g : Disk → Except IoError α) : Quiet (look g) :=
  quiet_disk.bind fun _ => quiet_ofExcept (hasOwn_io _)

theorem quiet_change {g : Disk → Except IoError Disk} (h : ∀ d d', g d = .ok d' → d'.cwd = d.cwd) :
    Quiet (change g) where
  keeps := fun started cwd => keeps_change fun w d hw hg => ⟨hw.1, (h w.disk d hg).trans hw.2⟩
  own := by
    intro w e he
    cases hg : g w.disk with
    | ok d =>
      rw [outcome, change_of_ok hg] at he
      exact absurd he (by simp)
    | error e' =>
      rw [outcome, change_of_error hg] at he
      obtain rfl := Except.error.inj he
      trivial

theorem quiet_makeDirs (path : String) : Quiet (makeDirs path) where
  keeps := fun started cwd => keeps_makeDirs fun w hw =>
    ⟨hw.1, (Disk.cwd_ensureDirs w.disk path).trans hw.2⟩
  own := by
    intro w e he
    change outcome (ofExcept ((w.disk.ensureDirs path).2.mapError .io)) _ = _ at he
    rw [outcome_ofExcept] at he
    exact hasOwn_io _ e he

theorem quiet_makeParents (path : String) : Quiet (makeParents path) := by
  unfold makeParents
  split
  · exact quiet_makeDirs _
  · exact quiet_pure ()

theorem quiet_forM {g : ι → Act Unit} {items : List ι} (h : ∀ x ∈ items, Quiet (g x)) :
    Quiet (items.forM g) := by
  induction items with
  | nil => exact quiet_pure ()
  | cons x items ih =>
    obtain ⟨hx, hitems⟩ := List.forall_mem_cons.1 h
    exact hx.bind fun _ => ih hitems

theorem quiet_mapM {g : ι → Act α} {items : List ι} (h : ∀ x ∈ items, Quiet (g x)) :
    Quiet (items.mapM g) := by
  induction items with
  | nil => exact quiet_pure []
  | cons x items ih =>
    obtain ⟨hx, hitems⟩ := List.forall_mem_cons.1 h
    rw [List.mapM_cons]
    exact hx.bind fun a => (ih hitems).bind fun rest => quiet_pure (a :: rest)

theorem quiet_stage (path : String) (content : Content) : Quiet (stage path content) :=
  (quiet_makeParents path).bind fun _ => quiet_change fun _ _ h => Disk.cwd_write h

/-! ## Running a program -/

/-- The program is started with these arguments in a directory that the path leads to. -/
structure Runs (program : String) (args : List String) (dir : String) (st : Start) : Prop where
  program : st.invocation.program = program
  args : st.invocation.args = args
  dir : ∃ n, st.disk.find dir true = .ok (st.invocation.dir, n) ∧ n.isDir = true

/-- Where nothing is started, the plan does not matter if the act fails. -/
theorem Performs.of_error {e : Failure} (h : Performs toolbox [] act w)
    (he : outcome act w = .error e) (plan : List Step) : Performs toolbox plan act w := by
  obtain ⟨⟨starts, hstarted, hcourse, hsame⟩, hcwd⟩ := h
  refine ⟨⟨starts, hstarted, ?_, hsame⟩, hcwd⟩
  rw [he] at hcourse ⊢
  exact hcourse.of_error plan

theorem performs_throw {e : Failure} (h : e.IsOwn) (f : α → Act β) (w : Workspace) :
    Performs toolbox plan (throw e >>= f) w :=
  .after (quiet_throw h) fun _ _ hok => absurd hok throw_ok

/-- What comes of a program that was started. -/
def conclude (st : Start) (d : Disk) (exit : Exit) : Act Unit := do
  noteStart st.invocation
  setDisk d
  if exit ≠ .code 0 then throw (.command st.invocation.line exit.toInt)

theorem conclude_of_eq {d : Disk} {exit : Exit} (i : Invocation) (h : exit = .code 0) :
    conclude ⟨i, w.disk⟩ d exit w = .ok ()
    { w with disk := d, started := w.started ++ [⟨i, w.disk⟩] } := by
  unfold conclude
  rw [if_neg (not_not_intro h)]
  rfl

theorem conclude_of_ne {d : Disk} {exit : Exit} (i : Invocation) (h : exit ≠ .code 0) :
    conclude ⟨i, w.disk⟩ d exit w =
      .error (.command i.line exit.toInt)
      { w with disk := d, started := w.started ++ [⟨i, w.disk⟩] } := by
  unfold conclude
  rw [if_pos h]
  rfl

/-- **A run** of a program is one step. -/
theorem performs_run {program : String} {args : List String} {dir : String} {step : Step}
    (hmeets : ∀ st, st.disk = w.disk → Runs program args dir st → step st) :
    Performs toolbox [step] (runProgram toolbox program args dir) w := by
  unfold runProgram
  split
  · exact performs_throw (by trivial) _ w
  refine .after (quiet_look _) fun p w₁ hlook => ?_
  obtain ⟨l, n⟩ := p
  obtain ⟨hfind, rfl⟩ := look_ok.1 hlook
  show Performs toolbox _ (if !n.isDir then throw _ >>= _ else _) w
  split
  · exact performs_throw (by trivial) _ w
  next hdir =>
  have hisDir : n.isDir = true := by simpa using hdir
  refine .after quiet_disk fun d w₁ hdisk => ?_
  obtain ⟨rfl, rfl⟩ := disk_ok.1 hdisk
  cases htool : toolbox w.disk ⟨program, args, l⟩ with
  | error e => exact ((quiet_throw (by trivial)).performs w).of_error rfl _
  | ok r =>
    obtain ⟨d, exit⟩ := r
    let st : Start := ⟨⟨program, args, l⟩, w.disk⟩
    have hstep : step st := hmeets st rfl ⟨rfl, rfl, n, hfind, hisDir⟩
    have hends : toolbox.Ends st exit := ⟨d, htool⟩
    have hcwd : toolbox.Stays → d.cwd = w.disk.cwd := fun hstays => hstays _ _ _ _ htool
    have hsame : toolbox.Stays → ∀ st' ∈ [st], st'.disk.cwd = w.disk.cwd := by simp [st]
    show Performs toolbox _ (conclude st d exit) w
    by_cases hexit : exit = .code 0
    · have hrun := conclude_of_eq (w := w) (d := d) ⟨program, args, l⟩ hexit
      refine ⟨⟨[st], ?_, ?_, hsame⟩, ?_⟩
      · rw [leaves_of_ok hrun]
      · rw [outcome, hrun]
        exact .finished () ⟨.cons hstep .nil, by simpa using hexit ▸ hends⟩
      · rw [leaves_of_ok hrun]
        exact hcwd
    · have hrun := conclude_of_ne (w := w) (d := d) ⟨program, args, l⟩ hexit
      refine ⟨⟨[st], ?_, ?_, hsame⟩, ?_⟩
      · rw [leaves_of_error hrun]
      · rw [outcome, hrun]
        exact .refused_at_once hstep hends hexit
      · rw [leaves_of_error hrun]
        exact hcwd

theorem runProgram_ok {program : String} {args : List String} {dir : String} {u : Unit}
    (h : runProgram toolbox program args dir w = .ok u w') :
    ∃ i, toolbox w.disk i = .ok (w'.disk, .code 0) := by
  unfold runProgram at h
  split at h
  · obtain ⟨_, _, hthrow, -⟩ := bind_ok.1 h
    exact absurd hthrow throw_ok
  obtain ⟨⟨l, n⟩, w₁, hlook, h⟩ := bind_ok.1 h
  obtain ⟨-, rfl⟩ := look_ok.1 hlook
  dsimp only at h
  split at h
  · obtain ⟨_, _, hthrow, -⟩ := bind_ok.1 h
    exact absurd hthrow throw_ok
  obtain ⟨d, w₁, hdisk, h⟩ := bind_ok.1 h
  obtain ⟨rfl, rfl⟩ := disk_ok.1 hdisk
  cases htool : toolbox w.disk ⟨program, args, l⟩ with
  | error e =>
    simp only [htool] at h
    exact absurd h throw_ok
  | ok r =>
    obtain ⟨d, exit⟩ := r
    simp only [htool] at h
    obtain ⟨_, w₁, hnote, h⟩ := bind_ok.1 h
    obtain ⟨_, w₂, hset, h⟩ := bind_ok.1 h
    obtain rfl := setDisk_ok.1 hset
    obtain ⟨hexit, rfl⟩ := check_ok.1 h
    exact ⟨_, by rw [htool, Decidable.not_not.1 hexit]⟩

/-- The absolute form of a path is that of the moment. -/
theorem performs_absolute {archive : String} {f : String → Act α}
    (hf : ∀ full, w.disk.absolute archive = .ok full → Performs toolbox plan (f full) w) :
    Performs toolbox plan (look (·.absolute archive) >>= f) w := by
  refine .after (quiet_look _) fun full w' hlook => ?_
  obtain ⟨hfull, rfl⟩ := look_ok.1 hlook
  exact hf full hfull

/-! ## In a scratch directory -/

theorem cwd_cleared (d : Disk) (path : String) : (cleared d path).cwd = d.cwd := by
  unfold cleared Disk.remove
  cases d.find path false <;> rfl

/-- **Work in a scratch directory** has the plan of what is done there. -/
theorem performs_withScratch {body : String → Act α}
    (h : ∀ d, w.disk.makeDir (scratchPath w) = .ok d →
      Performs toolbox plan (body (scratchPath w)) { w with disk := d }) :
    Performs toolbox plan (withScratch body) w := by
  cases hmake : w.disk.makeDir (scratchPath w) with
  | error e =>
    have herror := withScratch_of_error body hmake
    refine ⟨⟨[], ?_, ?_, by simp⟩, fun _ => ?_⟩
    · rw [leaves_of_error herror, List.append_nil]
    · rw [outcome, herror]
      exact .stopped_at_once (by trivial)
    · rw [leaves_of_error herror]
  | ok d =>
    obtain ⟨⟨starts, hstarted, hcourse, hsame⟩, hcwd⟩ := h d hmake
    have hmade := Disk.cwd_makeDir hmake
    have houtcome : outcome (withScratch body) w =
        outcome (body (scratchPath w)) { w with disk := d } := by
      unfold outcome
      rw [withScratch_of_ok body hmake]
      cases body (scratchPath w) { w with disk := d } <;> rfl
    refine ⟨⟨starts, ?_, ?_, fun hstays st hst => (hsame hstays st hst).trans hmade⟩,
      fun hstays => ?_⟩
    · rw [leaves_withScratch body hmake]
      exact hstarted
    · rw [houtcome]
      exact hcourse
    · rw [leaves_withScratch body hmake]
      exact (cwd_cleared _ _).trans ((hcwd hstays).trans hmade)

end Act
end Rebadge
