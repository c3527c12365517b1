import Rebadge.Proofs.Batch
import Rebadge.Proofs.Run.Units

/-!
# Patches commute

The units of a batch end in any order as each ends alone, and leave the same tree
(`Batch.Valid.patchAll`).
-/

namespace Rebadge

open Archiver (native)

namespace Batch

variable {b : Batch} {s s' : Run.Setting}

theorem names_downloaded (b : Batch) : b.downloaded.map (fun p => p.1.filename) = b.names := by
  rw [downloaded, List.map_map]
  rfl

theorem Valid.patchAll (h : b.Valid) (hconfig : s.config = b.config)
    (harchiver : s.archiver = native) :
    ∃ d, Run.patchAll s b.downloaded b.start = .ok (b.names.map b.result) (b.at_ d) ∧
      b.After b.names d := by
  have hperm := Run.perm_turns s b.downloaded
  have hnames : ((Run.turns s b.downloaded).map fun p => p.1.filename).Perm b.names := by
    rw [← b.names_downloaded]
    exact hperm.map _
  have hunits : ∀ p ∈ Run.turns s b.downloaded, Run.unit s p = b.unit p.1.filename := by
    intro p hp
    obtain ⟨a, -, rfl⟩ := List.mem_map.1 (hperm.mem_iff.1 hp)
    rw [Run.unit, hconfig, harchiver]
    rfl
  obtain ⟨houtcomes, hleaves⟩ :=
    Act.outcomes_map (w := b.start) (fun p : Artifact × String => p.1.filename) hunits
  obtain ⟨hresults, d, hd, hafter⟩ := h.after_nil.units h (List.nil_subset _) hnames.subset
    (hnames.nodup_iff.2 h.nodup) (by simp)
  refine ⟨d, ?_, ⟨hafter.world, fun name hname => hafter.finished name ?_,
    fun name hname hnot => absurd hname hnot⟩⟩
  · rw [Run.patchAll_eq, hleaves]
    congr 1
    refine List.ext_getElem? fun i => ?_
    by_cases hi : i < b.downloaded.length
    · obtain ⟨n, hn⟩ := Run.exists_turn s hi
      obtain ⟨hturn, harranged⟩ :=
        Run.getElem?_arranged (w := b.start) hn (List.getElem?_eq_getElem hi)
      have houtcome : (Act.outcomes (Run.unit s) (Run.turns s b.downloaded) b.start)[n]? =
          some (b.result b.downloaded[i].1.filename) := by
        rw [houtcomes, show b.start = b.at_ b.start.disk from rfl, hresults, List.map_map,
          List.getElem?_map, hturn]
        rfl
      rw [Act.getElem?_outcomes, hturn] at houtcome
      rw [harranged, ← b.names_downloaded, List.map_map, List.getElem?_map,
        List.getElem?_eq_getElem hi]
      exact houtcome
    · have hlength : b.names.length = b.downloaded.length := by
        rw [← b.names_downloaded, List.length_map]
      rw [List.getElem?_eq_none (by rw [Run.length_arranged]; omega),
        List.getElem?_eq_none (by rw [List.length_map]; omega)]
  · rw [List.append_nil, List.mem_reverse]
    exact hnames.mem_iff.2 hname

/-- **Patches commute.** In whatever order the artifacts are patched, each ends as it does alone,
the trees that are left are the same, and nothing else has changed. -/
theorem Valid.patches_commute (h : b.Valid) (hconfig : s.config = b.config)
    (harchiver : s.archiver = native) (hconfig' : s'.config = b.config)
    (harchiver' : s'.archiver = native) :
    ∃ d d', Run.patchAll s b.downloaded b.start = .ok (b.names.map b.result) (b.at_ d) ∧
      Run.patchAll s' b.downloaded b.start = .ok (b.names.map b.result) (b.at_ d') ∧
      (∀ k, d.tree.get? k = d'.tree.get? k) ∧ ∀ k, k ∉ b.own →
          d.tree.get? k = b.start.disk.tree.get? k := by
  obtain ⟨d, hd, hafter⟩ := h.patchAll hconfig harchiver
  obtain ⟨d', hd', hafter'⟩ := h.patchAll hconfig' harchiver'
  refine ⟨d, d', hd, hd', fun k => ?_, fun k hk => hafter.world.aside.same k hk⟩
  by_cases hk : k ∈ b.own
  · obtain ⟨name, hname, hplace⟩ := List.mem_flatMap.1 hk
    rw [hafter.finished name hname k hplace, hafter'.finished name hname k hplace]
  · rw [hafter.world.aside.same k hk, hafter'.world.aside.same k hk]

/-! ## A small batch -/

/-- A disk with a file to put in the artifacts, and with these artifacts. -/
def diskWith (more : List (Location × Node)) : Disk where
  tree :=
    ⟨[(["tmp"], .dir 0o755), (["src"], .dir 0o755), (["src", "a"], .file (.bytes []) 0o644)] ++
      more⟩

/-- A wheel, a source tarball and a file of another kind. -/
def small : Batch where
  config := { package := "p", forkPackage := "f", trackedFiles := ["a"], sourceRoot := "src" }
  artifacts := [⟨"p-1.whl", ""⟩, ⟨"p-1.tar.gz", ""⟩, ⟨"p-1.txt", ""⟩]
  start.disk := diskWith [(["dist"], .dir 0o755),
    (["dist", "p-1.whl"], .file (.zip [
      { name := "p-1.dist-info/METADATA", data := .bytes [] },
      { name := "p-1.dist-info/RECORD", data := .bytes [] }]) 0o644),
    (["dist", "p-1.tar.gz"], .file (.tar [
      ⟨"p-1/pyproject.toml", .file (.bytes []), 0o644⟩, ⟨"p-1/PKG-INFO", .file (.bytes []), 0o644⟩])
      0o644),
    (["dist", "p-1.txt"], .file (.bytes []) 0o644)]
  dist := ["dist"]
  tempAt := ["tmp"]

theorem mem_small {name : String} (h : name ∈ small.names) :
    name = "p-1.whl" ∨ name = "p-1.tar.gz" ∨ name = "p-1.txt" := by
  simpa [names, small] using h

theorem small_valid : small.Valid where
  tame := by decide
  plain := by decide
  nodup := by decide
  forks := by decide +kernel
  clash := by decide +kernel
  found := by decide +kernel
  file := by
    intro name hname
    obtain rfl | rfl | rfl := mem_small hname <;> exact ⟨_, _, rfl⟩
  noLinks := by
    intro name hname hkind content m members hget hmembers member hmember target
    obtain rfl | rfl | rfl := mem_small hname
    · exact absurd hkind (by decide)
    · obtain ⟨rfl, -⟩ := Node.file.inj (Option.some.inj hget)
      obtain rfl := Except.ok.inj hmembers
      simp only [List.mem_cons, List.not_mem_nil, or_false] at hmember
      obtain rfl | rfl := hmember <;> exact nofun
    · exact absurd hkind (by decide)
  wellFormed := Tree.wellFormed_of_parents (by decide)
  site := {
    root := by decide +kernel
    temp := by decide
    leads := ⟨by decide +kernel, _, rfl⟩
    names := by
      intro p hp
      obtain rfl := List.mem_singleton.1 hp
      exact ⟨⟨by decide, by decide, by decide, by decide⟩, by decide⟩
    scratch := by
      intro n hmem
      obtain ⟨name, -, hplace⟩ := List.mem_flatMap.1 hmem
      simp [places, download, output, small, site] at hplace }
  leads := ⟨by decide +kernel, _, rfl⟩
  sources := by
    intro t ht
    obtain rfl : t = "a" := by simpa [small] using ht
    exact ⟨_, _, rfl⟩
  top := by decide

/-- The tasks in the opposite order. -/
def backwards : Schedule where
  order n := (List.range n).reverse
  perm _ := List.reverse_perm _

/-- The batch patched in an order. -/
def settingOf (b : Batch) (patches : Schedule) : Run.Setting :=
  { config := b.config, archiver := native, network := .unreachable, patches }

theorem patches_commute_small :
    ∃ d d', Run.patchAll (small.settingOf .inOrder) small.downloaded small.start =
      .ok (small.names.map small.result) (small.at_ d) ∧
    Run.patchAll (small.settingOf backwards) small.downloaded small.start =
      .ok (small.names.map small.result) (small.at_ d') ∧
    (∀ k, d.tree.get? k = d'.tree.get? k) ∧ ∀ k, k ∉ small.own →
    d.tree.get? k = small.start.disk.tree.get? k :=
  small_valid.patches_commute rfl rfl rfl rfl

/-! ## Paths through the places of artifacts -/

/-- The tracked sources lie behind a link, and the first artifact goes to where the link is. -/
def crossing : Batch where
  config := {
    package := "p", forkPackage := "f", trackedFiles := ["a"], sourceRoot := "dist/f-1.zip" }
  artifacts := [⟨"p-1.zip", ""⟩, ⟨"p-1.whl", ""⟩]
  start.disk := diskWith [(["dist"], .dir 0o755), (["dist", "f-1.zip"], .link "../src"),
    (["dist", "p-1.zip"], .file (.bytes []) 0o644),
    (["dist", "p-1.whl"], .file (.zip [
      { name := "p-1.dist-info/METADATA", data := .bytes [] },
      { name := "p-1.dist-info/RECORD", data := .bytes [] }]) 0o644)]
  dist := ["dist"]
  tempAt := ["tmp"]

/-- The directory at the top of the second artifact is the one that the first artifact goes to. -/
def climbing : Batch where
  config := {
    package := "p", forkPackage := "PKG", trackedFiles := ["a"], sourceRoot := "src"
    distDir := "tmp" }
  artifacts := [⟨"p-INFO", ""⟩, ⟨"...tar.gz", ""⟩]
  start.disk := diskWith [(["tmp", "pyproject.toml"], .file (.bytes []) 0o644),
    (["tmp", "p-INFO"], .file (.bytes []) 0o644), (["tmp", "...tar.gz"], .file (.tar []) 0o644)]
  dist := ["tmp"]
  tempAt := ["tmp"]

/-- The sources are at none of the places. -/
def SourcesApart (b : Batch) : Prop :=
  ∀ t ∈ b.config.trackedFiles, ∃ k n, b.start.disk.find (b.config.trackedSource t) true =
    .ok (k, n) ∧ k ∉ b.own

theorem crossing_separate : crossing.Separate where
  tame := by decide
  plain := by decide
  nodup := by decide
  forks := by decide +kernel
  clash := by decide +kernel
  found := by decide +kernel
  file := by
    intro name hname
    obtain rfl | rfl : name = "p-1.zip" ∨ name = "p-1.whl" := by simpa [names, crossing] using hname
    · exact ⟨_, _, rfl⟩
    · exact ⟨_, _, rfl⟩
  noLinks := by
    intro name hname hkind
    obtain rfl | rfl : name = "p-1.zip" ∨ name = "p-1.whl" := by simpa [names, crossing] using hname
    · exact absurd hkind (by decide)
    · exact absurd hkind (by decide)

theorem climbing_separate : climbing.Separate where
  tame := by decide
  plain := by decide
  nodup := by decide
  forks := by decide +kernel
  clash := by decide +kernel
  found := by decide +kernel
  file := by
    intro name hname
    obtain rfl | rfl : name = "p-INFO" ∨ name = "...tar.gz" := by
      simpa [names, climbing] using hname
    · exact ⟨_, _, rfl⟩
    · exact ⟨_, _, rfl⟩
  noLinks := by
    intro name hname hkind content m members hget hmembers member hmember
    obtain rfl | rfl : name = "p-INFO" ∨ name = "...tar.gz" := by
      simpa [names, climbing] using hname
    · exact absurd hkind (by decide)
    · obtain ⟨rfl, -⟩ := Node.file.inj (Option.some.inj hget)
      obtain rfl := Except.ok.inj hmembers
      exact absurd hmember List.not_mem_nil

set_option maxRecDepth 100000 in
/-- **Names are not enough.** The outcomes depend on the order if a source is reached through the
place of an artifact, or if a tarball has the directory for scratch directories at its top. -/
theorem separate_not_commuting :
    (crossing.Separate ∧ crossing.SourcesApart ∧ ∃ r r' w w',
      Run.patchAll (crossing.settingOf .inOrder) crossing.downloaded crossing.start = .ok r w ∧
      Run.patchAll (crossing.settingOf backwards) crossing.downloaded crossing.start = .ok r' w' ∧
      r ≠ r') ∧
    (climbing.Separate ∧ climbing.SourcesApart ∧ ∃ r r' w w',
      Run.patchAll (climbing.settingOf .inOrder) climbing.downloaded climbing.start = .ok r w ∧
      Run.patchAll (climbing.settingOf backwards) climbing.downloaded climbing.start = .ok r' w' ∧
      r ≠ r') := by
  have hsource : ∀ {b : Batch}, b.config.trackedFiles = ["a"] →
      (∃ n, b.start.disk.find (b.config.trackedSource "a") true = .ok (["src", "a"], n)) →
      ["src", "a"] ∉ b.own →
      b.SourcesApart := by
    intro b hfiles hfind hown t ht
    obtain rfl : t = "a" := by simpa [hfiles] using ht
    exact ⟨_, _, hfind.choose_spec, hown⟩
  refine ⟨⟨crossing_separate, hsource rfl ⟨_, rfl⟩ (by decide +kernel), _, _, _, _,
    Run.patchAll_eq .., Run.patchAll_eq .., by decide +kernel⟩, climbing_separate,
    hsource rfl ⟨_, rfl⟩ (by decide +kernel), _, _, _, _, Run.patchAll_eq ..,
    Run.patchAll_eq .., by decide +kernel⟩

end Batch
end Rebadge
