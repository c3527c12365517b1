import Rebadge.Proofs.Run.Ending

/-!
# Where a run puts files

An artifact is downloaded to its name in the directory of the artifacts and ends up at its name
under the fork there, whatever the directory is called: a name that is no single component of a path
is refused before anything is asked for, and the name under the fork of a single component is one
again (`places_inside`).
-/

namespace Rebadge

open Rebadge.Path (IsPlain)

namespace Path

/-- The path is that of a name right in a directory. It has one component more than the directory;
and wherever the directory is on a disk, the path leads to the name in it, unless that is a link and
followed. -/
structure InDir (dir name path : String) : Prop where
  components : components path = components dir ++ [.normal name]
  located {d : Disk} {D l : Location} {f : Bool} : d.Leads dir D →
    (f = false ∨ ∀ target, d.tree.get? (D ++ [name]) ≠ some (.link target)) →
    d.locate path f = .ok l → l = D ++ [name]

theorem inDir_join (dir : String) {name : String} (h : IsPlain name) :
    InDir dir name (join dir name) where
  components := components_join dir h
  located hleads hlink hlocate := Disk.joined_ok ((hleads.locate_join h _ hlink).symm.trans hlocate)

end Path

open Rebadge.Path (InDir)

namespace Run

variable {s : Setting} {a : Artifact} {w w' : Workspace} {path : String}

theorem download_refused (s : Setting) (h : ¬ IsPlain a.filename) (w : Workspace) :
    download s a w = .error (.malformed a.filename .notAFileName) w := by
  unfold download
  rw [Release.distPath_error h]
  rfl

/-- The last thing that is done to an artifact is to move its file. -/
theorem unit_moves {p : Artifact × String} {item : Patched} (h : unit s p w = .ok item w') :
    item = ⟨.ofFilename p.1.filename, p.1.filename,
      Artifact.forkPath s.config s.config.distDir p.1.filename⟩ ∧
      ∃ d : Disk, d.rename p.2 (Artifact.forkPath s.config s.config.distDir p.1.filename) =
          .ok w'.disk := by
  rw [unit_eq] at h
  obtain ⟨_, w₁, -, h⟩ := Act.bind_ok.1 h
  obtain ⟨_, w₂, hmove, h⟩ := Act.bind_ok.1 h
  obtain ⟨rfl, rfl⟩ := Act.pure_ok.1 h
  obtain ⟨d, hd, rfl⟩ := Act.change_ok.1 hmove
  exact ⟨rfl, w₁.disk, hd⟩

/-- **Outputs stay in their directory.** Exactly the names of a single component have a place in a
directory, and their names under the fork have one as well; both are right in the directory. An
artifact is downloaded to the one and moved to the other once it is patched, and one with any other
name is refused with nothing done. -/
theorem places_inside (name : String) :
    (∀ dist path, Release.distPath dist name = .ok path ↔ IsPlain name ∧
      path = Path.join dist name) ∧
    (∀ (c : Config) dist, IsPlain name → '/' ∉ c.forkDistName.toList →
      Release.distPath dist (c.renamed name) = .ok (Artifact.forkPath c dist name) ∧
      InDir dist name (Path.join dist name) ∧ InDir dist (c.renamed name)
        (Artifact.forkPath c dist name)) ∧
    ∀ (s : Setting) (url : String) (w : Workspace),
      (¬ IsPlain name → download s ⟨name, url⟩ w = .error (.malformed name .notAFileName) w) ∧
      (∀ path w', download s ⟨name, url⟩ w = .ok path w' → path = Path.join s.config.distDir name ∧
        ∃ (d : Disk) (content : Content), d.write path content = .ok w'.disk) ∧
      ∀ path item w', unit s (⟨name, url⟩, path) w = .ok item w' →
        item = ⟨.ofFilename name, name, Artifact.forkPath s.config s.config.distDir name⟩ ∧
        ∃ d : Disk, d.rename path (Artifact.forkPath s.config s.config.distDir name) =
            .ok w'.disk := by
  refine ⟨fun dist path => ⟨fun h => ?_, ?_⟩, fun c dist hplain hfork => ?_,
    fun s url w => ⟨?_, ?_, ?_⟩⟩
  · obtain ⟨hpath, hplain⟩ := Release.distPath_ok h
    exact ⟨hplain, hpath⟩
  · rintro ⟨hplain, rfl⟩
    exact Release.distPath_eq hplain dist
  · have hrenamed := isPlain_renamed hfork hplain
    exact ⟨Release.distPath_eq hrenamed dist, Path.inDir_join dist hplain,
      Path.inDir_join dist hrenamed⟩
  · exact fun hplain => download_refused s hplain w
  · intro path w' h
    obtain ⟨-, rfl, r, w₁, d, -, hd, rfl⟩ := download_ok.1 h
    exact ⟨rfl, w₁.disk, r.body, hd⟩
  · intro path item w' h
    have hmoves := unit_moves h
    exact hmoves

set_option maxRecDepth 100000 in
theorem places_inside_local :
    Release.distPath "dist" "p-1.0.0.dev1+a.txt" = .ok "dist/p-1.0.0.dev1+a.txt" ∧
    Release.distPath "dist" "f-1.0.0.dev1.txt" = .ok "dist/f-1.0.0.dev1.txt" ∧
    InDir "dist" "f-1.0.0.dev1.txt" "dist/f-1.0.0.dev1.txt" ∧
    download twoVersions ⟨"..", "http://h/p/.."⟩ fresh =
      .error (.malformed ".." .notAFileName) fresh ∧
    ∃ (w₀ w₁ w₂ : Workspace) (d e : Disk) (content : Content) (item : Patched),
      download twoVersions ⟨"p-1.0.0.dev1+a.txt", "http://h/p/a.txt"⟩ w₀ =
        .ok "dist/p-1.0.0.dev1+a.txt" w₁ ∧
      d.write "dist/p-1.0.0.dev1+a.txt" content = .ok w₁.disk ∧
      unit twoVersions (⟨"p-1.0.0.dev1+a.txt", "http://h/p/a.txt"⟩, "dist/p-1.0.0.dev1+a.txt") w₁ =
        .ok item w₂ ∧
      item.path = "dist/f-1.0.0.dev1.txt" ∧
          e.rename "dist/p-1.0.0.dev1+a.txt" item.path = .ok w₂.disk := by
  let a : Artifact := ⟨"p-1.0.0.dev1+a.txt", "http://h/p/a.txt"⟩
  let w₀ := Act.leaves (Act.makeDirs "dist") fresh
  let w₁ := Act.leaves (download twoVersions a) w₀
  let w₂ := Act.leaves (unit twoVersions (a, "dist/p-1.0.0.dev1+a.txt")) w₁
  have hpath : Artifact.forkPath twoVersions.config "dist" a.filename =
    "dist/f-1.0.0.dev1.txt" := by decide +kernel
  have hplain : IsPlain a.filename := by decide
  have hfork : '/' ∉ twoVersions.config.forkDistName.toList := by decide
  have hdownload : download twoVersions a w₀ = .ok "dist/p-1.0.0.dev1+a.txt" w₁ :=
    Act.eq_of_outcome_ok (by decide +kernel)
  have hunit : unit twoVersions (a, "dist/p-1.0.0.dev1+a.txt") w₁ =
      .ok ⟨.other, a.filename, "dist/f-1.0.0.dev1.txt"⟩ w₂ :=
      Act.eq_of_outcome_ok (by decide +kernel)
  obtain ⟨hplace, hforked, hacts⟩ := places_inside a.filename
  obtain ⟨hfound, -, hin⟩ := hforked twoVersions.config "dist" hplain hfork
  obtain ⟨-, hwrites, -⟩ := hacts twoVersions a.url w₀
  obtain ⟨-, -, hmoves⟩ := hacts twoVersions a.url w₁
  obtain ⟨-, d, content, hwrite⟩ := hwrites _ _ hdownload
  obtain ⟨-, e, hmove⟩ := hmoves _ _ _ hunit
  have hrenamed : twoVersions.config.renamed a.filename = "f-1.0.0.dev1.txt" := by decide +kernel
  rw [hpath, hrenamed] at hfound hin
  refine ⟨(hplace _ _).2 ⟨hplain, by decide +kernel⟩, hfound, hin, ?_, ?_⟩
  · exact ((places_inside "..").2.2 twoVersions "http://h/p/.." fresh).1 (by decide)
  · have hmove' : e.rename "dist/p-1.0.0.dev1+a.txt" "dist/f-1.0.0.dev1.txt" = .ok w₂.disk :=
      hpath ▸ hmove
    exact ⟨w₀, w₁, w₂, d, e, content, _, hdownload, hwrite, hunit, rfl, hmove'⟩

end Run
end Rebadge
