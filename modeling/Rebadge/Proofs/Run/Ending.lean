import Rebadge.Proofs.Disk.Siblings
import Rebadge.Proofs.Run.Fetching
import Rebadge.Proofs.Run.Units

/-!
# How a run ends

A run that cannot find its artifacts or download them all stops before anything is patched.
Otherwise all artifacts are patched, and the first failure in their order is that of the run
(`run_ending`). What cannot be found or downloaded is told by the answers of the network
(`Resolves`, `Unavailable`): an answer with a status from 400 to 599 counts as none, one from 600 on
as any other (`oddStatus_run`).
-/

namespace Rebadge

open Rebadge.Path (IsPlain)
open Act (Keeps outcomes leavesAll asked)

namespace Run

variable {s : Setting} {a : Artifact} {artifacts : List Artifact} {w w' : Workspace}

/-! ## Downloads -/

/-- Artifacts were downloaded and requests sent, and nothing else was done. -/
inductive Fetched (s : Setting) (artifacts : List Artifact) (w : Workspace) : Workspace → Prop where
  | none : Fetched s artifacts w w
  | asked {w' : Workspace} (requests : List Request) (h : Fetched s artifacts w w') :
    Fetched s artifacts w (asked w' requests)
  | written {w' : Workspace} {a : Artifact} {path : String} {r : Response} {d : Disk}
    (h : Fetched s artifacts w w') (ha : a ∈ artifacts)
    (hpath : Release.distPath s.config.distDir a.filename = .ok path)
    (hr : Http.GetsText s.network a.url (.ok r)) (hd : w'.disk.write path r.body = .ok d) :
    Fetched s artifacts w { w' with disk := d }

theorem Fetched.started (h : Fetched s artifacts w w') : w'.started = w.started := by
  induction h with
  | none => rfl
  | asked _ _ ih => exact ih
  | written _ _ _ _ _ ih => exact ih

theorem keeps_download (ha : a ∈ artifacts) : Keeps (Fetched s artifacts w) (download s a) := by
  unfold download
  refine (Act.keeps_ofExcept _).bind_of fun path _ _ hpath => ?_
  obtain ⟨hpath, -⟩ := Act.ofExcept_ok.1 hpath
  refine ((Http.asks_getText _ _).keeps fun _ requests h => h.asked requests).bind_of
    fun r w₁ w₂ hr => ?_
  have hserved := (Http.outcome_getText w₁ _).1 (Act.outcome_of_ok hr)
  exact (Act.keeps_change fun _ _ h hd => h.written ha hpath hserved hd).bind fun _ =>
    Act.keeps_pure _

theorem keeps_downloadAll (s : Setting) (artifacts : List Artifact) (w : Workspace) :
    Keeps (Fetched s artifacts w) (downloadAll s artifacts) := by
  unfold downloadAll
  refine (Act.keeps_mapM fun ⟨a, i⟩ hmem => ?_).bind fun _ => Act.keeps_pure _
  exact (keeps_download (List.mem_of_getElem? (Schedule.getElem?_of_mem_arrange hmem))).bind
    fun _ => Act.keeps_pure _

/-- The artifacts with the paths that they are downloaded to. -/
def placed (s : Setting) (artifacts : List Artifact) : List (Artifact × String) :=
  artifacts.map fun a => (a, Path.join s.config.distDir a.filename)

/-- **All artifacts were downloaded.** -/
theorem downloadAll_ok {downloaded : List (Artifact × String)}
    (h : downloadAll s artifacts w = .ok downloaded w') :
    downloaded = placed s artifacts ∧ ∀ a ∈ artifacts, ∃ path w₁ w₂,
    download s a w₁ = .ok path w₂ := by
  unfold downloadAll at h
  obtain ⟨paths, w₁, hpaths, h⟩ := Act.bind_ok.1 h
  obtain ⟨rfl, -⟩ := Act.pure_ok.1 h
  have hone : ∀ p ∈ s.downloads.arrange artifacts, ∀ w b w',
      (do return ((p.1, ← download s p.1), p.2) : Act _) w = .ok b w' →
      b = ((p.1, Path.join s.config.distDir p.1.filename), p.2) ∧
        ∃ path, download s p.1 w = .ok path w' := by
    intro p _ w b w' hb
    obtain ⟨path, _, hpath, hb⟩ := Act.bind_ok.1 hb
    obtain ⟨rfl, rfl⟩ := Act.pure_ok.1 hb
    obtain ⟨-, rfl, -⟩ := download_ok.1 hpath
    exact ⟨rfl, _, hpath⟩
  obtain ⟨rfl, hall⟩ := Act.mapM_ok hpaths fun p hp w b w' hb => (hone p hp w b w' hb).1
  refine ⟨?_, fun a ha => ?_⟩
  · exact inOrder_arrange s.downloads artifacts fun a => (a, Path.join s.config.distDir a.filename)
  · obtain ⟨i, hi⟩ := List.mem_iff_getElem?.1 ha
    have hmem := s.downloads.mem_arrange hi
    obtain ⟨w₂, b, w₃, hb⟩ := hall _ hmem
    obtain ⟨path, hpath⟩ := (hone _ hmem w₂ b w₃ hb).2
    exact ⟨path, w₂, w₃, hpath⟩

/-- **Not all were.** One of them cannot be fetched or written. -/
theorem downloadAll_error {e : Failure} (h : downloadAll s artifacts w = .error e w') :
    ∃ a ∈ artifacts, Undelivered s a e := by
  unfold downloadAll at h
  rcases Act.bind_error.1 h with hpaths | ⟨paths, w₁, -, h⟩
  · obtain ⟨⟨a, i⟩, hmem, w₁, hone⟩ := Act.mapM_error hpaths
    refine ⟨a, List.mem_of_getElem? (Schedule.getElem?_of_mem_arrange hmem), ?_⟩
    rcases Act.bind_error.1 hone with hdownload | ⟨path, w₂, -, hpure⟩
    · exact download_error hdownload
    · exact absurd hpure (by rintro ⟨⟩)
  · exact absurd h (by rintro ⟨⟩)

theorem Unavailable.downloadAll {e : Failure} (h : Unavailable s a e) (ha : a ∈ artifacts)
    (w : Workspace) : ∃ e' w', downloadAll s artifacts w = .error e' w' := by
  cases hall : Run.downloadAll s artifacts w with
  | error e' w' => exact ⟨e', w', rfl⟩
  | ok downloaded w' =>
    obtain ⟨path, w₁, w₂, hok⟩ := (downloadAll_ok hall).2 a ha
    obtain ⟨e', w₃, herror⟩ := h.download w₁
    exact absurd (hok.symm.trans herror) (by rintro ⟨⟩)

/-! ## Units -/

/-- The file of the artifact was patched and then moved to its name in the fork. -/
def Forked (s : Setting) (p : Artifact × String) (w w' : Workspace) (item : Patched) : Prop :=
  item = ⟨.ofFilename p.1.filename, p.1.filename,
    Artifact.forkPath s.config s.config.distDir p.1.filename⟩ ∧
    ∃ d source target n,
      Artifact.patchContent s.config s.archiver (.ofFilename p.1.filename) p.2 w =
        .ok () { w' with disk := d } ∧
      d.locate p.2 false = .ok source ∧
      d.locate (Artifact.forkPath s.config s.config.distDir p.1.filename) false = .ok target ∧
      d.tree.get? source = some n ∧ Disk.Moves source target d w'.disk

theorem unit_eq (s : Setting) (p : Artifact × String) : unit s p = (do
    Artifact.patchContent s.config s.archiver (.ofFilename p.1.filename) p.2
    Act.change (·.rename p.2 (Artifact.forkPath s.config s.config.distDir p.1.filename))
    return ⟨.ofFilename p.1.filename, p.1.filename,
      Artifact.forkPath s.config s.config.distDir p.1.filename⟩) := rfl

theorem unit_ok {p : Artifact × String} {item : Patched} (h : unit s p w = .ok item w') :
    Forked s p w w' item := by
  rw [unit_eq] at h
  obtain ⟨_, w₁, hpatch, h⟩ := Act.bind_ok.1 h
  obtain ⟨_, w₂, hmove, h⟩ := Act.bind_ok.1 h
  obtain ⟨rfl, rfl⟩ := Act.pure_ok.1 h
  obtain ⟨d, hrename, rfl⟩ := Act.change_ok.1 hmove
  obtain ⟨source, target, n, hsource, htarget, hget, hmoves⟩ := Disk.rename_ok hrename
  exact ⟨rfl, w₁.disk, source, target, n, hpatch, hsource, htarget, hget, hmoves⟩

/-! ## The whole run -/

theorem run_of_resolved {channel : Channel} {w₀ w₁ : Workspace}
    (hdir : Act.makeDirs s.config.distDir w = .ok () w₀)
    (hresolve : resolve s channel w₀ = .ok artifacts w₁) : run s channel w =
      (downloadAll s artifacts >>= fun downloaded => patchAll s downloaded >>= fun results =>
        results.mapM Act.ofExcept) w₁ := by
  unfold run
  rw [Act.bind_of_ok hdir, Act.bind_of_ok hresolve]

theorem run_of_unresolved {channel : Channel} {w₀ w₁ : Workspace} {e : Failure}
    (hdir : Act.makeDirs s.config.distDir w = .ok () w₀)
    (hresolve : resolve s channel w₀ = .error e w₁) : run s channel w = .error e w₁ := by
  unfold run
  rw [Act.bind_of_ok hdir]
  exact Act.bind_of_error hresolve

/-- **How a run ends.** If the artifacts are not found or not all downloaded, nothing is patched or
moved; so it is where one of them is unavailable. Otherwise each artifact is patched in its turn and
moved if that succeeds, and the first failure in the order of the listing is that of the run. -/
theorem run_ending (channel : Channel) {w₀ : Workspace}
    (hdir : Act.makeDirs s.config.distDir w = .ok () w₀) :
    (∀ e, Resolves s channel (.error e) →
      ∃ requests, run s channel w = .error e (asked w₀ requests)) ∧
    ∀ artifacts, Resolves s channel (.ok artifacts) → ∃ w₁ requests, w₁ = asked w₀ requests ∧
      ((∃ a ∈ artifacts, ∃ e, Unavailable s a e) →
        ∃ e w₂, downloadAll s artifacts w₁ = .error e w₂) ∧
      (∀ e w₂, downloadAll s artifacts w₁ = .error e w₂ → (∃ a ∈ artifacts, Undelivered s a e) ∧
        run s channel w = .error e w₂ ∧ Fetched s artifacts w₁ w₂ ∧ w₂.started = w₁.started) ∧
      ∀ downloaded w₂, downloadAll s artifacts w₁ = .ok downloaded w₂ →
        downloaded = placed s artifacts ∧
        (∀ i p, downloaded[i]? = some p → ∃ n, (s.patches.order downloaded.length)[n]? = some i ∧
          (arranged s downloaded w₂)[i]? = some (Act.outcome (unit s p) (stage s downloaded w₂ n)) ∧
          ∀ item, (arranged s downloaded w₂)[i]? = some (.ok item) →
            Forked s p (stage s downloaded w₂ n) (stage s downloaded w₂ (n + 1)) item) ∧
        ((∃ items : List Patched, arranged s downloaded w₂ = items.map .ok ∧
            run s channel w = .ok items (stage s downloaded w₂ downloaded.length)) ∨
          ∃ (before : List Patched) (e : Failure) (after : List (Except Failure Patched)),
            arranged s downloaded w₂ = before.map .ok ++ .error e :: after ∧
            run s channel w = .error e (stage s downloaded w₂ downloaded.length)) := by
  refine ⟨fun e hends => ?_, fun artifacts hends => ?_⟩
  · have hresolve := Act.eq_of_outcome_error (hends.outcome_eq w₀)
    obtain ⟨requests, hasked⟩ := ((asks_resolve s channel).of_error hresolve).1
    exact ⟨requests, hasked ▸ run_of_unresolved hdir hresolve⟩
  have hresolve := Act.eq_of_outcome_ok (hends.outcome_eq w₀)
  obtain ⟨requests, hasked⟩ := ((asks_resolve s channel).of_ok hresolve).1
  rw [hasked] at hresolve
  have hrun := run_of_resolved hdir hresolve
  refine ⟨asked w₀ requests, requests, rfl, fun ⟨a, ha, e, hnone⟩ => hnone.downloadAll ha _,
    fun e w₂ hdownload => ?_, fun downloaded w₂ hdownload => ?_⟩
  · have hfetched := keeps_downloadAll s artifacts (asked w₀ requests) _ .none
    rw [Act.leaves_of_error hdownload] at hfetched
    exact ⟨downloadAll_error hdownload, by rw [hrun, Act.bind_of_error hdownload], hfetched,
      hfetched.started⟩
  refine ⟨(downloadAll_ok hdownload).1, fun i p hp => ?_, ?_⟩
  · obtain ⟨n, hn⟩ := exists_turn s (List.getElem?_eq_some_iff.1 hp).1
    obtain ⟨hturn, houtcome⟩ := getElem?_arranged (w := w₂) hn hp
    refine ⟨n, hn, houtcome, fun item hitem => ?_⟩
    rw [houtcome, Option.some.injEq] at hitem
    rw [stage_succ hturn]
    exact unit_ok (Act.eq_of_outcome_ok hitem)
  · rw [hrun, Act.bind_of_ok hdownload, Act.bind_of_ok (patchAll_eq s downloaded w₂), ← stage_all]
    exact Act.mapM_ofExcept _ _

/-! ## Small runs -/

/-- A page of links at the address of a package, texts at the addresses that end in `.txt`, and
nothing elsewhere. -/
def pageOf (page : String) : Network where
  exchange r :=
    if r.url = "http://h/p/" then .ok ⟨200, "OK", none, .ofText page⟩
    else if Text.hasSuffix r.url ".txt" then .ok ⟨200, "OK", none, .ofText r.url⟩
    else .ok ⟨404, "Not Found", none, .bytes []⟩

/-- The files of a page are forked to another name. -/
def forking (page : String) : Setting where
  config := { package := "p", forkPackage := "f", nightlyUrl := "http://h" }
  archiver := Archiver.native
  network := pageOf page

/-- A disk without files. -/
def fresh : Workspace where
  disk := {}

/-- Two files of different versions. -/
def twoVersions : Setting := forking "<a href=\"p-1.txt\"><a href=\"p-2.txt\">"

/-- The second file is not there. -/
def oneMissing : Setting := forking "<a href=\"p-1.txt\"><a href=\"p-2.zip\">"

set_option maxRecDepth 100000 in
theorem twoVersions_run : ∃ w', run twoVersions .nightly fresh =
    .ok [⟨.other, "p-1.txt", "dist/f-1.txt"⟩, ⟨.other, "p-2.txt", "dist/f-2.txt"⟩] w' :=
  have houtcome : Act.outcome (run twoVersions .nightly) fresh =
      .ok [⟨.other, "p-1.txt", "dist/f-1.txt"⟩, ⟨.other, "p-2.txt", "dist/f-2.txt"⟩] := by
      decide +kernel
  ⟨_, Act.eq_of_outcome_ok houtcome⟩

set_option maxRecDepth 100000 in
theorem run_ending_small :
    (∃ e w₂, run oneMissing .nightly fresh = .error e w₂ ∧ w₂.started = []) ∧
    ∃ artifacts w₂, ∃ items : List Patched,
      arranged twoVersions (placed twoVersions artifacts) w₂ = items.map .ok ∧
      run twoVersions .nightly fresh =
        .ok items (stage twoVersions (placed twoVersions artifacts) w₂
        (placed twoVersions artifacts).length) := by
  have hdir : Act.makeDirs "dist" fresh = .ok () (Act.leaves (Act.makeDirs "dist") fresh) := rfl
  refine ⟨?_, ?_⟩
  · let missing : Artifact := ⟨"p-2.zip", "http://h/p/p-2.zip"⟩
    have hresolves : Resolves oneMissing .nightly
        (.ok [⟨"p-1.txt", "http://h/p/p-1.txt"⟩, missing]) :=
      (outcome_resolve fresh _).1 (by decide +kernel)
    have hunavailable : ∃ e, Unavailable oneMissing missing e := by
      have hstatus : (Act.outcome (Http.getText oneMissing.network missing.url)
          fresh).toOption.isNone = true := by
        decide +kernel
      obtain ⟨e | r, hanswer⟩ := Http.exists_getsText oneMissing.network missing.url
      · exact ⟨_, .denied hanswer⟩
      · rw [hanswer.outcome_eq] at hstatus
        exact absurd hstatus (by simp [Except.toOption])
    obtain ⟨w₁, requests, rfl, hnone, hend, -⟩ := (run_ending .nightly hdir).2 _ hresolves
    obtain ⟨e, w₂, hdownload⟩ := hnone ⟨missing, by simp, hunavailable⟩
    obtain ⟨-, hrun, -, hstarted⟩ := hend e w₂ hdownload
    exact ⟨e, w₂, hrun, hstarted.trans rfl⟩
  · obtain ⟨w', hrun⟩ := twoVersions_run
    obtain ⟨artifacts, hresolve⟩ : ∃ artifacts, Act.outcome (resolve twoVersions .nightly) fresh =
        .ok artifacts :=
      ⟨[⟨"p-1.txt", "http://h/p/p-1.txt"⟩, ⟨"p-2.txt", "http://h/p/p-2.txt"⟩], by decide +kernel⟩
    obtain ⟨w₁, requests, rfl, -, hend, hall⟩ :=
      (run_ending .nightly hdir).2 _ ((outcome_resolve fresh _).1 hresolve)
    cases hdownload : downloadAll twoVersions artifacts
      (asked (Act.leaves (Act.makeDirs "dist") fresh) requests) with
    | error e w₂ => exact absurd (hrun.symm.trans (hend e w₂ hdownload).2.1) (by simp)
    | ok downloaded w₂ =>
      obtain ⟨rfl, -, ⟨items, harranged, hitems⟩ | ⟨_, e, _, -, herror⟩⟩ :=
        hall downloaded w₂ hdownload
      · exact ⟨artifacts, w₂, items, harranged, hitems⟩
      · exact absurd (hrun.symm.trans herror) (by simp)

/-- A page lists a file, and the answer to the request for the file has status 600. -/
def oddStatus : Setting where
  config := { package := "p", forkPackage := "f", nightlyUrl := "http://h" }
  archiver := Archiver.native
  network := {
    exchange := fun r =>
      if r.url = "http://h/p/" then .ok ⟨200, "OK", none, .ofText "<a href=\"p-1.txt\">"⟩
      else .ok ⟨600, "", none, .ofText "none"⟩ }

set_option maxRecDepth 100000 in
theorem oddStatus_run :
    Resolves oddStatus .nightly (.ok [⟨"p-1.txt", "http://h/p/p-1.txt"⟩]) ∧
    (∃ r, Http.GetsText oddStatus.network "http://h/p/p-1.txt" (.ok r) ∧ 400 ≤ r.status) ∧
    ∃ w', run oddStatus .nightly fresh = .ok [⟨.other, "p-1.txt", "dist/f-1.txt"⟩] w' := by
  refine ⟨(outcome_resolve fresh _).1 (by decide +kernel), ?_, ?_⟩
  · have hstatus :
        (Act.outcome (Http.getText oddStatus.network "http://h/p/p-1.txt") fresh).toOption.map
        Response.status = some 600 := by decide +kernel
    obtain ⟨e | r, hanswer⟩ := Http.exists_getsText oddStatus.network "http://h/p/p-1.txt"
    · rw [hanswer.outcome_eq] at hstatus
      exact absurd hstatus (by simp [Except.toOption])
    · rw [hanswer.outcome_eq] at hstatus
      refine ⟨r, hanswer, ?_⟩
      have h600 : r.status = 600 := by simpa [Except.toOption] using hstatus
      omega
  · have houtcome : Act.outcome (run oddStatus .nightly) fresh =
        .ok [⟨.other, "p-1.txt", "dist/f-1.txt"⟩] := by decide +kernel
    exact ⟨_, Act.eq_of_outcome_ok houtcome⟩

end Run
end Rebadge
