import Rebadge.Archiver.Native
import Rebadge.Proofs.Disk.Operations
import Rebadge.Wheel.Patch

/-!
# Acts that succeed

An act of several steps succeeds exactly if each step does, in the workspace that the step before it
left. For each act of a wheel's patch one lemma says which results of its parts make it succeed.
-/

namespace Rebadge

namespace Act

variable {α β : Type} {w w' : Workspace}

theorem bind_ok {x : Act α} {f : α → Act β} {b : β} :
    (x >>= f) w = .ok b w' ↔ ∃ a w₁, x w = .ok a w₁ ∧ f a w₁ = .ok b w' := by
  show EStateM.bind x f w = .ok b w' ↔ _
  unfold EStateM.bind
  cases x w with
  | ok a w₁ =>
    constructor
    · intro h
      exact ⟨a, w₁, rfl, h⟩
    · rintro ⟨_, _, heq, h⟩
      cases heq
      exact h
  | error e w₁ => simp

theorem bind_of_ok {x : Act α} {f : α → Act β} {a : α} {w₁ : Workspace} (h : x w = .ok a w₁) :
    (x >>= f) w = f a w₁ := by
  show EStateM.bind x f w = _
  unfold EStateM.bind
  rw [h]

theorem bind_of_error {x : Act α} {f : α → Act β} {e : Failure} {w₁ : Workspace}
    (h : x w = .error e w₁) : (x >>= f) w = .error e w₁ := by
  show EStateM.bind x f w = _
  unfold EStateM.bind
  rw [h]

theorem pure_ok {a b : α} : (pure a : Act α) w = .ok b w' ↔ a = b ∧ w = w' := by
  show EStateM.Result.ok a w = .ok b w' ↔ _
  simp

theorem throw_ok {e : Failure} {a : α} : ¬ (throw e : Act α) w = .ok a w' := by
  show ¬ EStateM.Result.error e w = .ok a w'
  simp

theorem check_ok {p : Prop} [Decidable p] {e : Failure} {u : Unit} :
    (if p then throw e else pure () : Act Unit) w = .ok u w' ↔ ¬ p ∧ w = w' := by
  by_cases hp : p
  · simp [hp, throw_ok]
  · simp [hp, pure_ok]

theorem ofExcept_ok {x : Except Failure α} {a : α} :
    ofExcept x w = .ok a w' ↔ x = .ok a ∧ w = w' := by
  unfold ofExcept
  cases x with
  | ok b => simp [pure_ok]
  | error e => simp [throw_ok]

theorem get_ok {w₁ : Workspace} : (get : Act Workspace) w = .ok w₁ w' ↔ w = w₁ ∧ w = w' := by
  show EStateM.Result.ok w w = .ok w₁ w' ↔ _
  simp

theorem disk_ok {d : Disk} : disk w = .ok d w' ↔ w.disk = d ∧ w = w' := by
  show EStateM.Result.ok w.disk w = .ok d w' ↔ _
  simp

theorem setDisk_ok {d : Disk} {u : Unit} : setDisk d w = .ok u w' ↔ w' = { w with disk := d } := by
  show EStateM.Result.ok () { w with disk := d } = .ok u w' ↔ _
  simp [eq_comm]

theorem look_ok {f : Disk → Except IoError α} {a : α} :
    look f w = .ok a w' ↔ f w.disk = .ok a ∧ w = w' := by
  unfold look
  simp only [bind_ok, disk_ok, ofExcept_ok, except_mapError_ok]
  constructor
  · rintro ⟨d, w₁, ⟨rfl, rfl⟩, h, rfl⟩
    exact ⟨h, rfl⟩
  · rintro ⟨h, rfl⟩
    exact ⟨_, _, ⟨rfl, rfl⟩, h, rfl⟩

theorem change_ok {f : Disk → Except IoError Disk} {u : Unit} :
    change f w = .ok u w' ↔ ∃ d, f w.disk = .ok d ∧ w' = { w with disk := d } := by
  unfold change
  simp only [bind_ok, look_ok, setDisk_ok]
  constructor
  · rintro ⟨d, w₁, ⟨h, rfl⟩, rfl⟩
    exact ⟨d, h, rfl⟩
  · rintro ⟨d, h, rfl⟩
    exact ⟨d, w, ⟨h, rfl⟩, rfl⟩

theorem makeDirs_ok {path : String} {u : Unit} : makeDirs path w = .ok u w' ↔
    (w.disk.ensureDirs path).2 = .ok () ∧ w' = { w with disk := (w.disk.ensureDirs path).1 } := by
  unfold makeDirs
  simp only [bind_ok, disk_ok, setDisk_ok, ofExcept_ok, except_mapError_ok]
  constructor
  · rintro ⟨d, w₁, ⟨rfl, rfl⟩, _, w₂, rfl, h, rfl⟩
    exact ⟨h, rfl⟩
  · rintro ⟨h, rfl⟩
    exact ⟨_, _, ⟨rfl, rfl⟩, (), _, rfl, h, rfl⟩

theorem forM_nil_ok {f : α → Act Unit} {u : Unit} : ([] : List α).forM f w = .ok u w' ↔ w = w' := by
  show (pure () : Act Unit) w = .ok u w' ↔ _
  simp [pure_ok]

theorem forM_cons_ok {f : α → Act Unit} {a : α} {l : List α} {u : Unit} :
    (a :: l).forM f w = .ok u w' ↔
    ∃ w₁, f a w = .ok () w₁ ∧ l.forM f w₁ = .ok u w' := by
  show (f a >>= fun _ => l.forM f) w = .ok u w' ↔ _
  rw [bind_ok]
  constructor
  · rintro ⟨⟨⟩, w₁, h₁, h₂⟩
    exact ⟨w₁, h₁, h₂⟩
  · rintro ⟨w₁, h₁, h₂⟩
    exact ⟨(), w₁, h₁, h₂⟩

/-- The place of the scratch directory. -/
def scratchPath (w : Workspace) : String :=
  Path.join w.tempDir (Disk.freshName ((w.disk.list w.tempDir).toOption.getD []))

/-- The disk without the scratch directory, or as it is if that cannot be removed. -/
def cleared (d : Disk) (path : String) : Disk := (d.remove path).toOption.getD d

theorem attempt_ok {act : Act α} {x : Except Failure α} : attempt act w = .ok x w' ↔
    act w = match x with
      | .ok a => .ok a w'
      | .error e => .error e w' := by
  unfold attempt
  cases act w <;> cases x <;> simp

theorem withScratch_ok {body : String → Act α} {a : α} : withScratch body w = .ok a w' ↔
    ∃ d w₁, w.disk.makeDir (scratchPath w) = .ok d ∧
      body (scratchPath w) { w with disk := d } = .ok a w₁ ∧
      w' = { w₁ with disk := cleared w₁.disk (scratchPath w) } := by
  have hmodify : ∀ (f : Workspace → Workspace) (w w₁ : Workspace) (u : PUnit),
      (modify f : Act PUnit) w = .ok u w₁ ↔ w₁ = f w := by
    intro f w w₁ u
    show EStateM.Result.ok PUnit.unit (f w) = .ok u w₁ ↔ _
    simp [eq_comm]
  unfold withScratch
  simp only [bind_ok, get_ok, change_ok, attempt_ok, hmodify, ofExcept_ok]
  constructor
  · rintro ⟨_, _, ⟨rfl, rfl⟩, _, _, ⟨d, hd, rfl⟩, x, w₁, hbody, _, _, rfl, rfl, rfl⟩
    exact ⟨d, w₁, hd, hbody, rfl⟩
  · rintro ⟨d, w₁, hd, hbody, rfl⟩
    exact ⟨w, w, ⟨rfl, rfl⟩, (), _, ⟨d, hd, rfl⟩, .ok a, w₁, hbody, (), _, rfl, rfl, rfl⟩

end Act

/-! ## Archives -/

namespace Archiver.Native

variable {w w' : Workspace}

theorem openZip_ok {archive : String} {entries : List (Zip.Entry Content)} :
    openZip archive w = .ok entries w' ↔ w = w' ∧ ∃ l c mode,
      w.disk.find archive true = .ok (l, .file c mode) ∧ c.zipEntries = .ok entries := by
  unfold openZip
  rw [Act.bind_ok]
  constructor
  · rintro ⟨⟨l, n⟩, w₁, hlook, h⟩
    obtain ⟨hfind, rfl⟩ := Act.look_ok.1 hlook
    cases n with
    | file c mode =>
      obtain ⟨hzip, rfl⟩ := Act.ofExcept_ok.1 h
      exact ⟨rfl, l, c, mode, hfind, except_mapError_ok.1 hzip⟩
    | dir mode => exact absurd h Act.throw_ok
    | link target => exact absurd h Act.throw_ok
  · rintro ⟨rfl, l, c, mode, hfind, hzip⟩
    exact ⟨(l, .file c mode), w, Act.look_ok.2 ⟨hfind, rfl⟩,
      Act.ofExcept_ok.2 ⟨except_mapError_ok.2 hzip, rfl⟩⟩

/-- The system lets an archive be written anew with certain entries. -/
structure Grants (w : Workspace) (archive : String) (entries : List (Zip.Entry Content)) :
    Prop where
  beside : w.disk.beside archive = .ok ()
  make : w.refuses archive .make = none
  fill : w.refuses archive (.fill entries) = none
  place : w.refuses archive (.place entries) = none

/-- What the system grants depends on the working directory only. -/
theorem Grants.congr {archive : String} {entries : List (Zip.Entry Content)}
    (h : Grants w archive entries) (hcwd : w'.disk.cwd = w.disk.cwd)
    (hrefuses : w'.refuses = w.refuses) : Grants w' archive entries where
  beside := by
    rw [← h.beside]
    unfold Disk.beside Disk.besidePath Disk.cwdText
    rw [hcwd]
  make := by rw [hrefuses, h.make]
  fill := by rw [hrefuses, h.fill]
  place := by rw [hrefuses, h.place]

theorem grant_ok {archive : String} {step : Rewriting} :
    w.grant archive step = .ok () ↔ w.refuses archive step = none := by
  unfold Workspace.grant
  cases w.refuses archive step <;> simp

theorem rewriting_ok {archive : String} {action : String → Zip.Action Content}
    {entries : List (Zip.Entry Content)} : rewriting w archive action entries = .ok () ↔
      Grants w archive (Zip.edit action entries) ∧ fits action entries = true := by
  unfold rewriting
  rw [except_bind_ok]
  constructor
  · rintro ⟨⟨⟩, hbeside, h⟩
    obtain ⟨⟨⟩, hmake, h⟩ := except_bind_ok.1 h
    obtain ⟨⟨⟩, hfill, h⟩ := except_bind_ok.1 h
    by_cases hfits : fits action entries = true
    · rw [if_pos hfits] at h
      exact ⟨⟨hbeside, grant_ok.1 hmake, grant_ok.1 hfill, grant_ok.1 h⟩, hfits⟩
    · rw [if_neg hfits] at h
      exact absurd h (by simp)
  · rintro ⟨⟨hbeside, hmake, hfill, hplace⟩, hfits⟩
    refine ⟨(), hbeside, except_bind_ok.2 ⟨(), grant_ok.2 hmake, ?_⟩⟩
    refine except_bind_ok.2 ⟨(), grant_ok.2 hfill, ?_⟩
    rw [if_pos hfits, grant_ok.2 hplace]

theorem editArchive_ok {archive : String} {action : String → Zip.Action Content}
    {entries : List (Zip.Entry Content)} : editArchive archive action w = .ok entries w' ↔
      openZip archive w = .ok entries w ∧ rewriting w archive action entries = .ok () ∧
        ∃ d, w.disk.replace archive (.zip (Zip.edit action entries)) = .ok d ∧
          w' = { w with disk := d } := by
  unfold editArchive
  simp only [Act.bind_ok, Act.get_ok, Act.ofExcept_ok, except_mapError_ok, Act.change_ok,
    Act.pure_ok]
  constructor
  · rintro ⟨_, _, hopen, _, _, ⟨rfl, rfl⟩, _, _, ⟨hok, rfl⟩, _, _, ⟨d, hd, rfl⟩, rfl, rfl⟩
    obtain ⟨rfl, -⟩ := openZip_ok.1 hopen
    exact ⟨hopen, hok, d, hd, rfl⟩
  · rintro ⟨hopen, hok, d, hd, rfl⟩
    exact ⟨entries, w, hopen, w, w, ⟨rfl, rfl⟩, (), w, ⟨hok, rfl⟩, (), _, ⟨d, hd, rfl⟩, rfl, rfl⟩

theorem deleteEntries_ok {archive : String} {doomed : List String} {u : Unit} :
    deleteEntries archive doomed w = .ok u w' ↔
      ∃ entries, editArchive archive (Zip.deleting doomed) w = .ok entries w' := by
  unfold deleteEntries discard
  show (editArchive archive (Zip.deleting doomed) >>= fun _ => pure ()) w = .ok u w' ↔ _
  simp only [Act.bind_ok, Act.pure_ok]
  constructor
  · rintro ⟨entries, w₁, h, -, rfl⟩
    exact ⟨entries, h⟩
  · rintro ⟨entries, h⟩
    exact ⟨entries, w', h, trivial, rfl⟩

theorem extractEntries_ok {archive dest : String} {names : List String} {u : Unit} :
    extractEntries archive names dest w = .ok u w' ↔
      ∃ entries, openZip archive w = .ok entries w ∧
        names.forM (extractEntry archive entries dest) w = .ok u w' := by
  unfold extractEntries
  simp only [Act.bind_ok]
  constructor
  · rintro ⟨entries, w₁, hopen, h⟩
    obtain ⟨rfl, -⟩ := openZip_ok.1 hopen
    exact ⟨entries, hopen, h⟩
  · rintro ⟨entries, hopen, h⟩
    exact ⟨entries, w, hopen, h⟩

/-- The entries after a tree was added, and whether all could be added. -/
def treeAdded (d : Disk) (archive base dirName : String) (entries : List (Zip.Entry Content)) :
    List (Zip.Entry Content) × Except Failure Unit :=
  match itemsFrom d (Path.join base dirName) with
  | .error e => (entries, .error (.io (.walk (Path.join base dirName) e)))
  | .ok items => addItems d archive base entries items

theorem addTree_ok {archive base dirName : String} {u : Unit} :
    addTree archive base dirName w = .ok u w' ↔
    ∃ entries d, openZip archive w = .ok entries w ∧
      w.disk.write archive (.zip (treeAdded w.disk archive base dirName entries).1) = .ok d ∧
      (treeAdded w.disk archive base dirName entries).2 = .ok () ∧ w' = { w with disk := d } := by
  have hread : ∀ content entries,
      (w.disk.read archive = .ok content ∧ content.zipEntries = .ok entries) →
      openZip archive w = .ok entries w := by
    rintro content entries ⟨hread, hzip⟩
    obtain ⟨⟨l, n⟩, hfind, h⟩ := except_bind_ok.1 hread
    cases n with
    | file c mode =>
      obtain rfl : c = content := by simpa using h
      exact openZip_ok.2 ⟨rfl, l, c, mode, hfind, hzip⟩
    | dir mode => simp at h
    | link target => simp at h
  unfold addTree
  simp only [Act.bind_ok, Act.look_ok, Act.ofExcept_ok, Act.disk_ok,
    Act.change_ok, except_mapError_ok]
  constructor
  · rintro ⟨content, _, ⟨hcontent, rfl⟩, entries, _, ⟨hzip, rfl⟩, _, _, ⟨rfl, rfl⟩, _, _,
      ⟨d, hd, rfl⟩, hok, rfl⟩
    exact ⟨entries, d, hread content entries ⟨hcontent, hzip⟩, hd, hok, rfl⟩
  · rintro ⟨entries, d, hopen, hd, hok, rfl⟩
    obtain ⟨-, l, c, mode, hfind, hzip⟩ := openZip_ok.1 hopen
    refine ⟨c, w, ⟨?_, rfl⟩, entries, w, ⟨hzip, rfl⟩, _, w, ⟨rfl, rfl⟩, (), _,
      ⟨d, hd, rfl⟩, hok, rfl⟩
    exact except_bind_ok.2 ⟨_, hfind, rfl⟩

end Archiver.Native
end Rebadge
