import Rebadge.Proofs.Archiver.TreeAdding
import Rebadge.Proofs.Name
import Rebadge.Proofs.Version.Local
import Rebadge.Proofs.Wheel.Scanning

/-!
# The directory for metadata

Under the fork the directory still ends with `.dist-info` (`isDirName_renamed`): neither the package
name nor a local version reaches into the suffix. In a scratch directory that holds nothing else the
directory is the one that is found (`findDistInfo_ok`).
-/

namespace Rebadge.Wheel

open Archiver.Native (IsFileName isDirectoryName)
open Disk (Scratch Single Fits)
open Rebadge.Path (IsPlain IsBase)

/-! ## Names of such directories -/

/-- A name without slashes that ends with the suffix. -/
structure IsDirName (dir : String) : Prop where
  slash : '/' ∉ dir.toList
  suffix : ∃ front, dir.toList = front ++ dirSuffix.toList

theorem isDirName_of_distInfoOf? {name dir : String} (h : distInfoOf? name = some dir) :
    IsDirName dir :=
  ⟨slash_of_distInfoOf? h, Text.hasSuffix_iff.1 (distInfoOf?_eq_some.1 h).1⟩

theorem IsDirName.isPlain {dir : String} (h : IsDirName dir) : IsPlain dir := by
  obtain ⟨front, hfront⟩ := h.suffix
  have hlength : dirSuffix.toList.length ≤ dir.toList.length := by
    rw [hfront, List.length_append]
    omega
  refine ⟨?_, ?_, ?_, h.slash⟩ <;>
    · rintro rfl
      exact absurd hlength (by decide)

theorem IsDirName.isFileName {dir : String} (h : IsDirName dir) : IsFileName dir := by
  obtain ⟨front, hfront⟩ := h.suffix
  refine ⟨h.isPlain, ?_⟩
  unfold isDirectoryName
  rw [hfront, List.getLast?_append_of_ne_nil _ (by decide)]
  rfl

theorem IsDirName.dot_mem {dir : String} (h : IsDirName dir) : '.' ∈ dir.toList := by
  obtain ⟨front, hfront⟩ := h.suffix
  rw [hfront]
  exact List.mem_append_right _ (.head _)

theorem ends_dirSuffix : Version.Ends dirSuffix.toList :=
  Version.ends_of_dot (b := "dist-info".toList)
    (fun c hc => by obtain rfl := Option.mem_some.1 hc; rfl) (by decide)

/-- What follows a text without dots still ends with the suffix. -/
theorem suffix_of_append {a b front : List Char} (ha : '.' ∉ a)
    (h : a ++ b = front ++ dirSuffix.toList) : ∃ rest, b = rest ++ dirSuffix.toList := by
  rcases List.append_eq_append_iff.1 h with ⟨x, rfl, rfl⟩ | ⟨x, rfl, hx⟩
  · exact ⟨x, rfl⟩
  · cases x with
    | nil => exact ⟨[], hx.symm⟩
    | cons c x =>
      have hc : c = '.' := (List.cons.inj hx).1.symm
      rw [hc] at ha
      exact absurd (by simp) ha

theorem isDirName_stripLocalVersion {name : String} (h : IsDirName name) :
    IsDirName (Version.stripLocalVersion name) := by
  obtain ⟨front, hfront⟩ := h.suffix
  have hself : Version.stripFrom 0 dirSuffix.toList = dirSuffix.toList := by decide
  have hstrip : (Version.stripLocalVersion name).toList = Version.stripFrom 0 front ++
      dirSuffix.toList := by
    unfold Version.stripLocalVersion
    rw [String.toList_ofList, hfront, Version.stripFrom_append ends_dirSuffix, hself]
  refine ⟨?_, _, hstrip⟩
  unfold Version.stripLocalVersion
  rw [String.toList_ofList]
  exact fun hmem => h.slash (Version.mem_of_mem_stripFrom hmem)

/-- **The directory of the fork** has such a name too. -/
theorem isDirName_renamed {c : Config} (hfork : '/' ∉ c.forkDistName.toList) {dir : String}
    (h : IsDirName dir) : IsDirName (c.renamed dir) := by
  unfold Config.renamed Name.toFork
  refine isDirName_stripLocalVersion ?_
  unfold Text.stripPrefix?
  cases hpre : (c.distName ++ "-").toList.isPrefixOf? dir.toList with
  | none => exact h
  | some rest =>
    obtain ⟨front, hfront⟩ := h.suffix
    have happend := List.isPrefixOf?_eq_some_iff_append_eq.1 hpre
    have hdot : '.' ∉ (c.distName ++ "-").toList := by
      rw [String.toList_append, List.mem_append, not_or]
      exact ⟨dot_not_mem_distName c, by decide⟩
    obtain ⟨middle, hmiddle⟩ := suffix_of_append hdot (happend.trans hfront)
    have hlist : (c.forkDistName ++ "-" ++ String.ofList rest).toList = c.forkDistName.toList ++
        "-".toList ++ rest := by
      simp only [String.toList_append, String.toList_ofList]
    constructor
    · show '/' ∉ (c.forkDistName ++ "-" ++ String.ofList rest).toList
      rw [hlist, List.mem_append, List.mem_append, not_or, not_or]
      refine ⟨⟨hfork, by decide⟩, fun hmem => h.slash ?_⟩
      rw [← happend]
      exact List.mem_append_right _ hmem
    · refine ⟨c.forkDistName.toList ++ "-".toList ++ middle, ?_⟩
      show (c.forkDistName ++ "-" ++ String.ofList rest).toList = _
      rw [hlist, hmiddle, ← List.append_assoc]

/-! ## Finding the directory -/

variable {d : Disk} {base : List String} {l : Location} {dir : String}

/-- Below a scratch directory a name that is missing leads nowhere, whatever follows it. -/
theorem find_missing (h : Scratch d base l) {name : String} (more : List String)
    (hname : IsPlain name) (hmore : ∀ p ∈ more, '/' ∉ p.toList)
    (hnone : d.tree.get? (l ++ [name]) = none) (follow : Bool) (found : Location × Node) :
    d.find ("/".intercalate (base ++ name :: more)) follow ≠ .ok found := by
  intro hfind
  obtain ⟨k, n⟩ := found
  obtain ⟨hlocate, hget⟩ := Disk.find_ok.1 hfind
  have hfits := (Disk.fits_of_locate hlocate).1
  have hslash : ∀ p ∈ name :: more, '/' ∉ p.toList := List.forall_mem_cons.2 ⟨hname.slash, hmore⟩
  obtain ⟨budget, hwalk⟩ := h.locate (by simp) hslash hfits follow
  obtain ⟨m, hdir⟩ := h.dir
  have hsize : name.utf8ByteSize ≤ Tree.maxNameSize := by
    refine hfits.names name ?_
    rw [Text.split_intercalate (by simp) (Disk.slash_append h.isBase hslash)]
    simp
  rw [hwalk, Tree.walk_eq,
    Tree.trail_name hdir ⟨hname.ne_empty, hname.ne_current, hname.ne_parent, hsize⟩, hnone]
    at hlocate
  by_cases hall : more.all (· == "") = true
  · rw [if_pos hall] at hlocate
    obtain rfl := Except.ok.inj hlocate
    rw [hnone] at hget
    exact absurd hget (by simp)
  · rw [if_neg hall] at hlocate
    exact absurd hlocate (by simp [Except.mapError])

/-- Where the pieces of a package name lead: they are all empty, or one of them is missing in the
directory. -/
inductive Lead (base : List String) (pieces : List String) (p : String) : Prop where
  | here (h : p = "/".intercalate base) : Lead base pieces p
  | slash (h : p = "/".intercalate base ++ "/") : Lead base pieces p
  | into (name : String) (h : name ∈ pieces) (hname : IsPlain name) (rest : String)
      (hp : p = "/".intercalate (base ++ [name]) ∨
        p = "/".intercalate (base ++ [name]) ++ "/" ++ rest)

theorem join_slash (p : String) {part : String} (hpart : Path.isAbsolute part = false) :
    Path.join (p ++ "/") part = p ++ "/" ++ part := by
  unfold Path.join
  rw [if_neg (by simp [hpart]), if_pos (Path.endsInSlash_append_slash p)]

theorem Lead.join (hbase : IsBase base) {pieces : List String} {p : String}
    (h : Lead base pieces p) {q : String} (hq : q = "" ∨ IsPlain q) :
    Lead base (pieces ++ [q]) (Path.join p q) := by
  have hrelative : Path.isAbsolute q = false := by
    rcases hq with rfl | hq
    · rfl
    · exact Path.isAbsolute_plain hq.slash
  have hinto : ∀ r, IsPlain q → r = "/".intercalate (base ++ [q]) →
      Lead base (pieces ++ [q]) r := fun r hplain hr =>
    .into q (by simp) hplain "" (Or.inl hr)
  cases h with
  | here h =>
    subst h
    rcases hq with rfl | hq
    · refine .slash ?_
      rw [Path.join_eq hbase hrelative,
        Text.intercalate_append hbase.ne_nil (Text.split_ne_nil "" '/'),
        Text.intercalate_split, String.append_empty]
    · exact hinto _ hq (Path.join_plain hbase hq.slash)
  | slash h =>
    subst h
    rw [join_slash _ hrelative]
    rcases hq with rfl | hq
    · exact .slash String.append_empty
    · refine hinto _ hq ?_
      rw [Text.intercalate_append hbase.ne_nil (by simp), String.intercalate_singleton]
  | into name hmem hname rest hp =>
    have hlong : IsBase (base ++ [name]) := hbase.append (by simpa using hname)
    rcases hp with rfl | rfl
    · refine .into name (List.mem_append_left _ hmem) hname q (Or.inr ?_)
      rw [Path.join_eq hlong hrelative,
        Text.intercalate_append hlong.ne_nil (Text.split_ne_nil q '/'), Text.intercalate_split]
    · have hne : "/".intercalate (base ++ [name]) ++ "/" ++ rest ≠ "" := by
        rw [ne_eq, String.append_eq_empty_iff, String.append_eq_empty_iff]
        exact fun hempty => absurd hempty.1.2 (by decide)
      unfold Path.join
      rw [if_neg (by simp [hrelative, hne])]
      split
      · exact .into name (List.mem_append_left _ hmem) hname (rest ++ q)
          (Or.inr String.append_assoc)
      · refine .into name (List.mem_append_left _ hmem) hname (rest ++ "/" ++ q) (Or.inr ?_)
        rw [String.append_assoc, String.append_assoc, String.append_assoc,
          String.append_assoc, String.append_assoc]

theorem lead_foldl (hbase : IsBase base) (pieces : List String)
    (hpieces : ∀ p ∈ pieces, p = "" ∨ IsPlain p) :
    Lead base pieces (pieces.foldl Path.join ("/".intercalate base)) := by
  induction pieces using List.reverseRecOn with
  | nil => exact .here rfl
  | append_singleton pieces q ih =>
    rw [List.foldl_append, List.foldl_cons, List.foldl_nil]
    exact (ih fun p hp => hpieces p (List.mem_append_left _ hp)).join hbase (hpieces q (by simp))

theorem pieces_distName (c : Config) : ∀ p ∈ Text.split c.distName '/', p = "" ∨
    IsPlain p ∧ '.' ∉ p.toList := by
  intro p hp
  have hdot : '.' ∉ p.toList := by
    intro hmem
    refine dot_not_mem_distName c ?_
    unfold Text.split at hp
    obtain ⟨q, hq, rfl⟩ := List.mem_map.1 hp
    rw [String.toList_ofList] at hmem
    exact Chars.mem_of_mem_split hq hmem
  by_cases hempty : p = ""
  · exact Or.inl hempty
  · refine Or.inr ⟨⟨hempty, ?_, ?_, Text.not_mem_of_mem_split hp⟩, hdot⟩
    · rintro rfl
      exact hdot (by decide)
    · rintro rfl
      exact hdot (by decide)

theorem suffix_of_isDistInfoOf {dist name : String} (h : isDistInfoOf dist name = true) :
    ∃ front, name.toList = front ++ dirSuffix.toList := by
  unfold isDistInfoOf Text.stripPrefix? at h
  cases hpre : (dist ++ "-").toList.isPrefixOf? name.toList with
  | none =>
    rw [hpre] at h
    exact absurd h (by simp)
  | some rest =>
    rw [hpre] at h
    obtain ⟨front, hfront⟩ := Text.hasSuffix_iff.1 h
    rw [String.toList_ofList] at hfront
    refine ⟨(dist ++ "-").toList ++ front, ?_⟩
    rw [← List.isPrefixOf?_eq_some_iff_append_eq.1 hpre, hfront, List.append_assoc]

/-- The directory that is found is named for the package and listed in a directory that the package
name leads to. -/
theorem exists_of_findDistInfo {dist path p : String} (h : findDistInfo d dir dist path = .ok p) :
    ∃ parent names y, parent = (Text.split dist '/').dropLast.foldl Path.join dir ∧
      d.list parent = .ok names ∧
      y ∈ names ∧ isDistInfoOf ((Text.split dist '/').getLastD "") y = true ∧
          p = Path.join parent y := by
  have hmem : p ∈ distInfoPaths d dir dist := by
    unfold findDistInfo at h
    split at h
    · next q hq => rw [hq, Except.ok.inj h, List.mem_singleton]
    · exact absurd h (by simp)
  unfold distInfoPaths at hmem
  obtain ⟨y, hy, rfl⟩ := List.mem_map.1 hmem
  obtain ⟨hy, hname⟩ := List.mem_filter.1 hy
  refine ⟨(Text.split dist '/').dropLast.foldl Path.join dir, ?_⟩
  cases hlist : d.list ((Text.split dist '/').dropLast.foldl Path.join dir) with
  | error e =>
    rw [hlist] at hy
    exact absurd hy List.not_mem_nil
  | ok names =>
    rw [hlist] at hy
    exact ⟨names, y, rfl, rfl, hy, hname, rfl⟩

/-- **The directory that is found** is the only one in the scratch directory. -/
theorem eq_of_findDistInfo (h : Scratch d base l) (hsingle : Single d l dir)
    (hdir : IsDirName dir) {c : Config} {path p : String}
    (hok : findDistInfo d ("/".intercalate base) c.distName path = .ok p) :
    p = "/".intercalate (base ++ [dir]) := by
  have hpieces := pieces_distName c
  obtain ⟨parent, names, y, hparent, hlist, hy, -, rfl⟩ := exists_of_findDistInfo hok
  have hlead : Lead base (Text.split c.distName '/').dropLast parent := by
    rw [hparent]
    refine lead_foldl h.isBase _ fun q hq => ?_
    rcases hpieces q (List.dropLast_subset _ hq) with hempty | hplain
    · exact Or.inl hempty
    · exact Or.inr hplain.1
  obtain ⟨k, mode, hfind, rfl⟩ := Disk.list_ok.1 hlist
  have hget : d.tree.get? (k ++ [y]) ≠ none := Tree.mem_names_iff.1 hy
  have hlocate := (Disk.find_ok.1 hfind).1
  have hfits := (Disk.fits_of_locate hlocate).1
  cases hlead with
  | here heq =>
    subst heq
    rw [h.locate_self hfits, Except.ok.injEq] at hlocate
    subst hlocate
    obtain rfl := hsingle.only y [] hget
    exact Path.join_plain h.isBase hdir.slash
  | slash heq =>
    have hpath : parent = "/".intercalate (base ++ [""]) := by
      rw [heq, Text.intercalate_append h.isBase.ne_nil (by simp), String.intercalate_singleton,
        String.append_empty]
    rw [hpath] at hlocate hfits
    obtain ⟨m, hself⟩ := h.dir
    obtain ⟨budget, hwalk⟩ := h.locate (by simp) (by simp) hfits true
    rw [hwalk, Tree.walk_of_trail (Tree.trail_empty hself (by simp) true)] at hlocate
    obtain rfl := Except.ok.inj hlocate
    obtain rfl := hsingle.only y [] hget
    rw [heq, join_slash _ (Path.isAbsolute_plain hdir.slash),
      Text.intercalate_append h.isBase.ne_nil (by simp), String.intercalate_singleton]
  | into name hmem hname rest hp =>
    have hnone : d.tree.get? (l ++ [name]) = none := by
      refine Decidable.byContradiction fun hsome => ?_
      obtain rfl := hsingle.only name [] hsome
      rcases hpieces name (List.dropLast_subset _ hmem) with hempty | ⟨-, hdot⟩
      · exact hname.ne_empty hempty
      · exact hdot hdir.dot_mem
    rcases hp with rfl | rfl
    · exact absurd hfind (find_missing h [] hname (by simp) hnone true _)
    · have hpath : "/".intercalate (base ++ [name]) ++ "/" ++ rest =
          "/".intercalate (base ++ name :: Text.split rest '/') := by
        rw [List.append_cons base name (Text.split rest '/'),
          Text.intercalate_append (by simp) (Text.split_ne_nil rest '/'), Text.intercalate_split]
      rw [hpath] at hfind
      exact absurd hfind (find_missing h _ hname
        (fun q hq => Text.not_mem_of_mem_split hq) hnone true _)

/-- For a package name without slashes it is found if its name is right. -/
theorem findDistInfo_ok (h : Scratch d base l) (hfits : Fits ("/".intercalate base))
    (hsingle : Single d l dir) (hdir : IsDirName dir) {dist : String} (hdist : '/' ∉ dist.toList)
    (hname : isDistInfoOf dist dir = true) (path : String) :
    findDistInfo d ("/".intercalate base) dist path = .ok ("/".intercalate (base ++ [dir])) := by
  obtain ⟨m, hself⟩ := h.dir
  obtain ⟨m', hchild⟩ := hsingle.dir
  have hnames : d.tree.names l = [dir] :=
    Tree.names_eq_singleton h.nodup (by rw [hchild]; exact Option.some_ne_none _) fun y hy =>
      hsingle.only y [] hy
  have hlist : d.list ("/".intercalate base) = .ok [dir] :=
    Disk.list_ok.2 ⟨l, m, Disk.find_eq (h.locate_self hfits true) hself, hnames.symm⟩
  have hpaths : distInfoPaths d ("/".intercalate base) dist =
      ["/".intercalate (base ++ [dir])] := by
    unfold distInfoPaths
    rw [Path.split_plain hdist]
    show ((((d.list ("/".intercalate base)).toOption.getD []).filter (isDistInfoOf dist)).map _) = _
    rw [hlist]
    show (([dir].filter (isDistInfoOf dist)).map _) = _
    rw [List.filter_cons_of_pos hname, List.filter_nil, List.map_singleton]
    exact congrArg (fun p => [p]) (Path.join_plain h.isBase hdir.slash)
  unfold findDistInfo
  rw [hpaths]

end Rebadge.Wheel
