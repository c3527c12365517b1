import Rebadge.Proofs.Artifact.Selection
import Rebadge.Proofs.Release.Links
import Rebadge.Proofs.Url.Segments

/-!
# The names on a listing

A page lists the files that its links lead to, each name at its first link (`ofPage_eq_ok`). The
names are those of files right in a directory, so each of them has its own place there
(`distPath_eq`). Both hold whatever the references look like; an index is not asked for URLs, but
its names are unique as well (`listing_names`).
-/

namespace Rebadge

/-- The name of the file that the URL leads to; it is empty if there is none. -/
def Url.fileName (u : Url) : String := u.lastSegment?.getD ""

/-- The file that the URL leads to. -/
def Url.artifact (u : Url) : Artifact := ⟨u.fileName, u.toText⟩

namespace Release

open Rebadge.Path (IsPlain)

variable {page : Url} {html reference : String} {found : List Artifact}

/-! ## Links and files -/

theorem artifactOf_eq_ok {a : Option Artifact} : artifactOf page reference = .ok a ↔
    ∃ u, page.resolve reference = .ok u ∧ a = if u.fileName = "" then none
      else some u.artifact := by
  unfold artifactOf
  rw [except_map_ok]
  refine exists_congr fun u => and_congr_right fun _ => ?_
  unfold Url.artifact Url.fileName
  rw [eq_comm]
  cases u.lastSegment? <;> rfl

theorem mapM_artifactOf_eq_ok {refs : List String} {files : List (Option Artifact)} :
    refs.mapM (artifactOf page) = .ok files ↔
    ∃ urls, List.Forall₂ (fun r u => page.resolve r = .ok u) refs urls ∧
      files = urls.map fun u => if u.fileName = "" then none else some u.artifact := by
  rw [except_mapM_ok]
  constructor
  · intro h
    induction h with
    | nil => exact ⟨[], .nil, rfl⟩
    | cons hfirst _ ih =>
      obtain ⟨u, hu, rfl⟩ := artifactOf_eq_ok.1 hfirst
      obtain ⟨urls, hurls, rfl⟩ := ih
      exact ⟨u :: urls, .cons hu hurls, rfl⟩
  · rintro ⟨urls, hurls, rfl⟩
    induction hurls with
    | nil => exact .nil
    | cons hu _ ih => exact .cons (artifactOf_eq_ok.2 ⟨_, hu, rfl⟩) ih

theorem distinct_artifacts (urls : List Url) :
    distinct []
    ((urls.map fun u => if u.fileName = "" then none else some u.artifact).filterMap id) =
      (firsts Url.fileName (·.fileName != "") urls).map Url.artifact := by
  have hfiles : (urls.map fun u => if u.fileName = "" then none else some u.artifact).filterMap id =
      (urls.filter (·.fileName != "")).map Url.artifact := by
    induction urls with
    | nil => rfl
    | cons u urls ih =>
      by_cases hu : u.fileName = "" <;> simpa [hu] using ih
  have hname : ∀ u v : Url, u.fileName = v.fileName → (u.fileName != "") = (v.fileName != "") :=
    fun u v heq => by rw [heq]
  rw [hfiles, distinct_eq, firsts_map]
  exact congrArg (List.map Url.artifact) (firsts_filter hname urls)

/-- **The files of a page** are those that its links lead to, each at the first of them. -/
theorem ofPage_eq_ok : ofPage html page = .ok found ↔ ∃ refs urls, Reads html.toList refs ∧
    List.Forall₂ (fun r u => page.resolve r = .ok u) refs urls ∧
    found = (firsts Url.fileName (·.fileName != "") urls).map Url.artifact := by
  unfold ofPage
  simp only [except_map_ok, mapM_artifactOf_eq_ok]
  constructor
  · rintro ⟨_, ⟨urls, hurls, rfl⟩, rfl⟩
    exact ⟨_, urls, reads_linksFrom _, hurls, distinct_artifacts urls⟩
  · rintro ⟨refs, urls, hrefs, hurls, rfl⟩
    obtain rfl := reads_iff.1 hrefs
    exact ⟨_, ⟨urls, hurls, rfl⟩, distinct_artifacts urls⟩

theorem isPlain_fileName {u : Url} (h : u.Parsed) (hne : u.fileName ≠ "") : IsPlain u.fileName := by
  cases hlast : u.lastSegment? with
  | none => exact absurd (by simp [Url.fileName, hlast]) hne
  | some name =>
    have heq : u.fileName = name := by simp [Url.fileName, hlast]
    rw [heq] at hne ⊢
    exact h.isPlain hlast hne

/-- What a reference on a page leads to was read against the page. -/
theorem parsed_of_resolved (hpage : page.Parsed) {refs : List String} {urls : List Url}
    (h : List.Forall₂ (fun r u => page.resolve r = .ok u) refs urls) : ∀ u ∈ urls, u.Parsed := by
  induction h with
  | nil => simp
  | cons hu _ ih => exact List.forall_mem_cons.2 ⟨.against hpage hu, ih⟩

/-- **The names on a listing.** A page that can be read lists the files that its links lead to, from
left to right, each name at the first link to it. The names are pairwise different, and each of them
is put right into the directory for them. The selection from an index keeps the order of the index;
each name that starts with package and version is there once, with the first file that has it. -/
theorem listing_names (hpage : page.Parsed) (html : String) (files : List Artifact)
    (package version : String) :
    (∀ found, ofPage html page = .ok found ↔ ∃ refs urls, Reads html.toList refs ∧
      List.Forall₂ (fun r u => page.resolve r = .ok u) refs urls ∧
      found = (firsts Url.fileName (·.fileName != "") urls).map Url.artifact) ∧
    (∀ found, ofPage html page = .ok found → (found.map Artifact.filename).Nodup ∧
      ∀ a ∈ found, IsPlain a.filename ∧
        ∀ dist, distPath dist a.filename = .ok (Path.join dist a.filename)) ∧
    (select files package version).Sublist files ∧
    ((select files package version).map Artifact.filename).Nodup ∧
    select files package version =
      firsts Artifact.filename
      (fun a => Text.hasPrefix a.filename (package ++ "-" ++ version)) files ∧
    ∀ before a after, files = before ++ a :: after →
      Text.hasPrefix a.filename (package ++ "-" ++ version) = true →
      (∀ b ∈ before, b.filename ≠ a.filename) → a ∈ select files package version := by
  rw [select_eq]
  refine ⟨fun _ => ofPage_eq_ok, ?_, firsts_sublist files, nodup_firsts files, rfl, ?_⟩
  · intro found hfound
    obtain ⟨refs, urls, -, hurls, rfl⟩ := ofPage_eq_ok.1 hfound
    constructor
    · rw [List.map_map]
      exact nodup_firsts urls
    · intro a ha
      obtain ⟨u, hu, rfl⟩ := List.mem_map.1 ha
      obtain ⟨hmem, hname⟩ := wanted_of_mem_firsts hu
      have hplain : IsPlain u.fileName :=
        isPlain_fileName (parsed_of_resolved hpage hurls u hmem) (bne_iff_ne.1 hname)
      exact ⟨hplain, distPath_eq hplain⟩
  · rintro before a after rfl hwanted hfirst
    exact mem_firsts hwanted hfirst

/-- The page of the files of a nightly build. -/
def nightlyPage : Url :=
  ⟨"https", some { host := .domain "files" }, .segments ["nightly", ""], none, none⟩

/-- Links up, to one file twice, and to a file that a detour leads to. -/
def nightlyLinks : String :=
  "<a href=\"../\"><a href=\"a.whl\"><a href=\"./%2E/x\\b.whl?q\"><a href=\"c/../a.whl#1\">"

def nightlyFiles : List Artifact :=
  [⟨"a.whl", "https://files/nightly/a.whl"⟩, ⟨"b.whl", "https://files/nightly/x/b.whl?q"⟩]

theorem listing_names_nightly :
    nightlyPage.Parsed ∧ ofPage nightlyLinks nightlyPage = .ok nightlyFiles ∧
    (nightlyFiles.map Artifact.filename).Nodup ∧
    ∀ a ∈ nightlyFiles, IsPlain a.filename ∧
      ∀ dist, distPath dist a.filename = .ok (Path.join dist a.filename) := by
  have hparsed : nightlyPage.Parsed :=
    .alone (show Url.parse "https://files/nightly/" = .ok nightlyPage by decide +kernel)
  have hfiles : ofPage nightlyLinks nightlyPage = .ok nightlyFiles := by decide +kernel
  exact ⟨hparsed, hfiles,
    (listing_names hparsed nightlyLinks nightlyFiles "b" "1.0").2.1 nightlyFiles hfiles⟩

end Release
end Rebadge
