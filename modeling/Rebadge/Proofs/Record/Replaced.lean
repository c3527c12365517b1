import Mathlib.Data.List.Infix
import Rebadge.Proofs.Record.Paths
import Rebadge.Proofs.Record.Swapping

/-!
# Replaced files in a plain record

In the fork's record of a plain text every replaced file has its fresh entry, if no two paths are
renamed to the same (`find?_forFork`). Where package name and local versions occur in the name of
one directory only, paths are renamed as this directory is (`renameAll_inDir`), and all other paths
stay (`renameAll_outside`).
-/

namespace Rebadge.Record

variable {c : Config} {replaced : List (String × Bytes)}
  {text path dir : String} {line s : List Char}

/-! ## The entry of a replaced file -/

theorem find?_eq_some {r : Record} (hnodup : r.paths.Nodup) {e : RecordEntry} (he : e ∈ r.entries) :
    r.find? e.path = some e := by
  unfold find?
  unfold paths at hnodup
  generalize r.entries = es at hnodup he
  induction es with
  | nil => exact absurd he List.not_mem_nil
  | cons f es ih =>
    rw [List.map_cons, List.nodup_cons] at hnodup
    rcases List.mem_cons.1 he with rfl | he
    · exact List.find?_cons_of_pos (by simp)
    · have hne : f.path ≠ e.path := fun heq => hnodup.1 (heq ▸ List.mem_map_of_mem he)
      rw [List.find?_cons_of_neg (by simpa using hne)]
      exact ih hnodup.2 he

theorem split_freshTail (content : Bytes) : Chars.split ',' (freshTail content) =
    [(Digest.ofContent content .standard).toList, (toString content.length).toList] := by
  have hdigest : ',' ∉ (Digest.ofContent content .standard).toList := fun h =>
    absurd (isPlain_of_mem_digest h) (by decide)
  have hsize : ',' ∉ (toString content.length).toList :=
    fun h => absurd (isPlain_of_mem_size h) (by decide)
  unfold freshTail
  rw [Chars.split_cons_of_not_mem hdigest, Chars.split_of_not_mem hsize]

theorem forkLine_of_find? (hcomma : ',' ∈ line) (hpath : pathOf line = path.toList)
    {content : Bytes} (hfind : replaced.find? (·.1 == path) = some (path, content)) :
    forkLine .standard replaced line = (freshLine .standard path content).toList := by
  have hsame : (fun r : String × Bytes => r.1.toList == pathOf line) = fun r => r.1 == path := by
    funext r
    rw [hpath, Bool.eq_iff_iff, beq_iff_eq, beq_iff_eq, String.toList_inj]
  unfold forkLine
  rw [hsame, hfind]
  exact if_pos (List.contains_iff_mem.2 hcomma)

theorem entry?_freshLine (hc : c.NamesValid) (hcomma : ',' ∉ path.toList)
    (hne : path ≠ "") {content : Bytes} (hlen : content.length < 0x10000000000000000) :
    entry? (Chars.split ',' (renamed c (freshLine .standard path content).toList)) =
      some (freshEntry (renameAll c path) content) := by
  have hnot : ',' ∉ renamed c path.toList := fun h => hcomma (mem_of_mem_renamed hc (by decide) h)
  have hnil : renamed c path.toList ≠ [] := renamed_ne_nil c (by simpa using hne)
  rw [renamed_freshLine hc, Chars.split_cons_of_not_mem hnot, split_freshTail, renameAll_eq]
  exact entry?_freshRow hnil hlen

theorem freshEntry_path (path : String) (content : Bytes) :
    (freshEntry path content).path = path := rfl

/-- **The entry of a replaced file** is the fresh one. -/
theorem find?_forFork (hc : c.NamesValid) (henc : c.digestEncoding = .standard)
    (htext : PlainText text.toList) (hline : line ∈ Chars.split '\n' text.toList)
    (hcomma : ',' ∈ line) (hpath : pathOf line = path.toList) (hne : path ≠ "") {content : Bytes}
    (hfind : replaced.find? (·.1 == path) = some (path, content))
    (hlen : content.length < 0x10000000000000000)
    (hnodup : (parse (forFork text replaced c)).paths.Nodup) :
    (parse (forFork text replaced c)).find? (renameAll c path) =
      some (freshEntry (renameAll c path) content) := by
  have hnot : ',' ∉ path.toList := by
    rw [← hpath]
    exact comma_not_mem_pathOf line
  have hentry := entry?_freshLine hc hnot hne hlen
  rw [← forkLine_of_find? hcomma hpath hfind] at hentry
  have hmem : freshEntry (renameAll c path) content ∈
      (parse (forFork text replaced c)).entries := by
    rw [entries_parse (htext.forFork hc replaced), lines_forFork hc, henc, List.mem_filterMap]
    exact ⟨_, List.mem_map_of_mem hline, hentry⟩
  have hfound := find?_eq_some hnodup hmem
  rw [freshEntry_path] at hfound
  exact hfound

/-! ## Names in one directory -/

/-- The package name does not stand before a hyphen, and there is no local version. -/
structure Clean (c : Config) (s : List Char) : Prop where
  name : ¬ packagePrefix c <:+: s
  version : ∀ z, z <:+ s → Version.localVersion? z = none

theorem Clean.renamed (h : Clean c s) : renamed c s = s := by
  unfold Record.renamed
  rw [Chars.replaceAll_eq_self (packagePrefix_ne_nil c) h.name, Version.stripFrom_of_none h.version]

/-- What stands before a separator has no local version if the whole text has none. -/
theorem localVersion?_left {x : Char} (hx : isBoundary x = true) {a b : List Char}
    (h : ∀ z, z <:+ a ++ x :: b → Version.localVersion? z = none) {z : List Char} (hz : z <:+ a) :
    Version.localVersion? z = none := by
  obtain ⟨hword, hdot, hplus, -⟩ := isBoundary_iff.1 hx
  obtain ⟨front, rfl⟩ := hz
  rw [← Version.localVersion?_append (Version.ends_of_separator hword hdot hplus b) z]
  exact h _ ⟨front, by rw [List.append_assoc]⟩

theorem Clean.left {x : Char} (hx : isBoundary x = true) {a b : List Char}
    (h : Clean c (a ++ x :: b)) : Clean c a :=
  ⟨fun hname => h.name (hname.trans (List.prefix_append a _).isInfix),
    fun _ hz => localVersion?_left hx h.version hz⟩

/-- The package name stands before a hyphen only where the line starts with the directory, once and
at the very start, and local versions occur in the name of the directory only. -/
structure NamedInDir (c : Config) (dir : String) (line : List Char) : Prop where
  outside : ¬ (dir ++ "/").toList <+: line → Clean c line
  once : (dir ++ "/").toList <+: line → ∀ a b, line = a ++ packagePrefix c ++ b → a = []
  version : ∀ rest, line = (dir ++ "/").toList ++ rest → ∀ z, z <:+ rest →
    Version.localVersion? z = none

theorem namedInDir_iff : NamedInDir c dir line ↔
    if (dir ++ "/").toList <+: line then
      (∀ a ∈ line.inits, a ++ packagePrefix c <+: line → a = []) ∧
        ∀ z ∈ (line.drop (dir ++ "/").toList.length).tails, Version.localVersion? z = none
    else ¬ packagePrefix c <:+: line ∧ ∀ z ∈ line.tails, Version.localVersion? z = none := by
  by_cases hpre : (dir ++ "/").toList <+: line
  · rw [if_pos hpre]
    obtain ⟨rest, hrest⟩ := hpre
    have hdrop : line.drop (dir ++ "/").toList.length = rest := by rw [← hrest, List.drop_left]
    rw [hdrop]
    simp only [List.mem_tails]
    constructor
    · intro h
      refine ⟨fun a _ ⟨b, hb⟩ => h.once ⟨rest, hrest⟩ a b hb.symm,
        fun z hz => h.version rest hrest.symm z hz⟩
    · rintro ⟨honce, hversion⟩
      refine ⟨fun hnot => absurd ⟨rest, hrest⟩ hnot, fun _ a b hab => honce a ?_ ⟨b, hab.symm⟩,
        fun r hr z hz => ?_⟩
      · rw [List.mem_inits, hab, List.append_assoc]
        exact List.prefix_append a _
      · rw [hr, List.append_cancel_left_eq] at hrest
        exact hversion z (hrest ▸ hz)
  · rw [if_neg hpre]
    simp only [List.mem_tails]
    constructor
    · intro h
      exact ⟨(h.outside hpre).name, (h.outside hpre).version⟩
    · rintro ⟨hname, hversion⟩
      exact ⟨fun _ => ⟨hname, hversion⟩, fun h => absurd h hpre,
        fun rest hrest => absurd ⟨rest, hrest.symm⟩ hpre⟩

instance (c : Config) (dir : String) (line : List Char) : Decidable (NamedInDir c dir line) :=
  decidable_of_iff _ namedInDir_iff.symm

theorem exists_eq_pathOf (line : List Char) :
    line = pathOf line ∨ ∃ rest, line = pathOf line ++ ',' :: rest := by
  by_cases h : ',' ∈ line
  · exact Or.inr (exists_eq_pathOf_append h)
  · exact Or.inl (pathOf_eq_self h).symm

theorem Clean.pathOf (h : Clean c line) : Clean c (pathOf line) := by
  rcases exists_eq_pathOf line with heq | ⟨rest, heq⟩
  · rwa [← heq]
  · rw [heq] at h
    exact h.left (by decide)

/-- **Other paths** stay. -/
theorem renameAll_outside (h : NamedInDir c dir line) (hcomma : ',' ∉ dir.toList)
    (hpath : Record.pathOf line = path.toList) (hout : ¬ (dir ++ "/").toList <+: path.toList) :
    renameAll c path = path := by
  have hclean : Clean c line := by
    refine h.outside fun hpre => hout ?_
    rw [← hpath]
    -- The directory has no comma, so it ends before the path does.
    obtain ⟨rest, rfl⟩ := hpre
    have hall : ∀ x ∈ (dir ++ "/").toList, (x != ',') = true := by
      intro x hx
      rw [String.toList_append, List.mem_append] at hx
      rcases hx with hx | hx
      · simpa using fun heq : x = ',' => hcomma (heq ▸ hx)
      · obtain rfl : x = '/' := by simpa using hx
        decide
    unfold Record.pathOf
    rw [List.takeWhile_append_of_pos hall]
    exact List.prefix_append _ _
  have hself := hclean.pathOf.renamed
  rw [hpath] at hself
  rw [renameAll_eq, hself, String.ofList_toList]

theorem renamed_dir (hdir : packagePrefix c <+: dir.toList)
    (honce : ∀ a b, dir.toList = a ++ packagePrefix c ++ b → a = []) :
    renamed c dir.toList = (c.renamed dir).toList := by
  obtain ⟨v, hv⟩ := hdir
  have hnot : ¬ packagePrefix c <:+: v := by
    rintro ⟨a, b, rfl⟩
    have hnil := honce (packagePrefix c ++ a) b (by rw [← hv]; simp)
    exact packagePrefix_ne_nil c (List.append_eq_nil_iff.1 hnil).1
  have hstrip : Text.stripPrefix? (c.distName ++ "-") dir = some (.ofList v) := by
    have hpre := List.isPrefixOf?_eq_some_iff_append_eq.2 hv
    unfold packagePrefix at hpre
    unfold Text.stripPrefix?
    rw [hpre]
    rfl
  unfold Config.renamed Name.toFork Version.stripLocalVersion renamed Chars.replaceAll
  rw [hstrip, if_neg (packagePrefix_ne_nil c), ← hv,
    Chars.replaceFrom_prefix (packagePrefix_ne_nil c), Chars.replaceFrom_eq_self hnot,
    String.toList_ofList]
  show Version.stripFrom 0 (forkPrefix c ++ v) =
    Version.stripFrom 0 (c.forkDistName ++ "-" ++ String.ofList v).toList
  rw [String.toList_append, String.toList_ofList]
  rfl

/-- **Paths in the directory** are renamed as it is. -/
theorem renameAll_inDir (hc : c.NamesValid) (hdir : packagePrefix c <+: dir.toList)
    (h : NamedInDir c dir line) {rest : String}
    (hpath : Record.pathOf line = (dir ++ "/" ++ rest).toList) :
    renameAll c (dir ++ "/" ++ rest) = c.renamed dir ++ "/" ++ rest := by
  have hlist : (dir ++ "/" ++ rest).toList = dir.toList ++ '/' :: rest.toList := by simp
  obtain ⟨tail, htail⟩ : ∃ tail, line = dir.toList ++ '/' :: (rest.toList ++ tail) := by
    rcases exists_eq_pathOf line with heq | ⟨tail, heq⟩
    · exact ⟨[], by rw [heq, hpath, hlist, List.append_nil]⟩
    · exact ⟨',' :: tail, by rw [heq, hpath, hlist, List.append_assoc, List.cons_append]⟩
  have hpre : (dir ++ "/").toList ++ (rest.toList ++ tail) = line := by rw [htail]; simp
  have honce := h.once ⟨_, hpre⟩
  have hself : renamed c dir.toList = (c.renamed dir).toList := by
    refine renamed_dir hdir fun a b hab => honce a (b ++ '/' :: (rest.toList ++ tail)) ?_
    rw [htail, hab, List.append_assoc]
  have hclean : Clean c rest.toList := by
    refine ⟨?_, fun z hz => ?_⟩
    · rintro ⟨a, b, hab⟩
      have hnil := honce (dir.toList ++ '/' :: a) (b ++ tail) (by rw [htail, ← hab]; simp)
      exact absurd hnil (by simp)
    · rcases exists_eq_pathOf line with heq | ⟨tail', heq⟩
      · refine h.version rest.toList ?_ z hz
        rw [heq, hpath]
        simp
      · refine localVersion?_left (x := ',') (by decide)
          (h.version (rest.toList ++ ',' :: tail') ?_) hz
        rw [heq, hpath]
        simp
  rw [renameAll_eq, hlist, renamed_append hc (by decide), hself, hclean.renamed]
  apply String.toList_inj.1
  simp

end Rebadge.Record
