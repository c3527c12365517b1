import Rebadge.Proofs.Artifact.Names

/-!
# The selection of a release

From an index the files of a release are selected by the beginning of their names: the name of the
package as it was given, a dash, and the version (`select_eq`). The names in an index carry the
normal form of the package name, and the version may go on. So the selection is that of the release
exactly if no listed file of the package has a version that only starts like the one that was asked
for; and for a package name that is not in normal form the two have no file in common
(`select_exact_iff`).
-/

namespace Rebadge

namespace Name

/-! ## Names that are not in normal form -/

theorem head_joinRuns_true (s : List Char) :
    ∀ c ∈ (joinRuns true s).head?, isSeparator c = false := by
  induction s with
  | nil => simp [joinRuns]
  | cons d s ih =>
    rw [joinRuns]
    by_cases hd : isSeparator d = true
    · rw [if_pos hd, if_pos rfl]
      exact ih
    · rw [if_neg hd]
      intro c hc
      obtain rfl : d = c := by simpa using hc
      exact eq_false_of_ne_true hd

theorem all_separators_of_joinRuns {s : List Char} (h : joinRuns true s = []) :
    ∀ c ∈ s, isSeparator c = true := by
  induction s with
  | nil => simp
  | cons d s ih =>
    rw [joinRuns] at h
    by_cases hd : isSeparator d = true
    · rw [if_pos hd, if_pos rfl] at h
      exact List.forall_mem_cons.2 ⟨hd, ih h⟩
    · rw [if_neg hd] at h
      exact absurd h (by simp)

/-- A name that ends with no separator, and its normal form: if a dash follows both in one text,
they are equal. -/
theorem eq_joinRuns_of_append {s x y : List Char} {inRun : Bool}
    (hlast : ∀ c ∈ s.getLast?, isSeparator c = false)
    (h : joinRuns inRun s ++ '-' :: x = s ++ '-' :: y) : joinRuns inRun s = s := by
  induction s generalizing inRun with
  | nil => rfl
  | cons d s ih =>
    have hlast' : ∀ c ∈ s.getLast?, isSeparator c = false :=
      fun c hc => hlast c (by rw [List.getLast?_cons, hc]; rfl)
    rw [joinRuns] at h ⊢
    by_cases hd : isSeparator d = true
    · rw [if_pos hd] at h ⊢
      cases inRun with
      | false =>
        rw [if_neg (by simp)] at h ⊢
        obtain ⟨rfl, hrest⟩ := List.cons.inj h
        rw [ih hlast' hrest]
      | true =>
        -- the separator is skipped, so nothing but separators can follow
        rw [if_pos rfl] at h ⊢
        exfalso
        cases hs : joinRuns true s with
        | nil =>
          obtain ⟨c, hc⟩ : ∃ c, (d :: s).getLast? = some c :=
            ⟨_, List.getLast?_eq_some_getLast (by simp)⟩
          have hsep : isSeparator c = true := by
            rcases List.mem_cons.1 (List.mem_of_getLast? hc) with rfl | hmem
            · exact hd
            · exact all_separators_of_joinRuns hs c hmem
          rw [hlast c hc] at hsep
          exact absurd hsep (by simp)
        | cons e r =>
          have he := head_joinRuns_true s e (by rw [hs]; rfl)
          rw [hs] at h
          rw [(List.cons.inj h).1, hd] at he
          exact absurd he (by simp)
    · rw [if_neg hd] at h ⊢
      rw [ih hlast' (List.cons.inj h).2]

end Name

namespace Artifact

/-! ## Names of files in an index -/

/-- The name of a file in an index, by its parts. -/
structure FileName where
  project : String
  version : String
  /-- The tags of a wheel; a source tarball has none. -/
  tags : Option String
  project_dash : '-' ∉ project.toList
  version_dash : '-' ∉ version.toList

/-- The name as it is listed. -/
def FileName.text (n : FileName) : String :=
  match n.tags with
  | none => sdistName n.project n.version
  | some tags => wheelName n.project n.version tags

/-- What stands between the first dash and the next one. -/
def FileName.versionText (n : FileName) : String :=
  match n.tags with
  | none => n.version ++ Sdist.suffix
  | some _ => n.version

/-- A file in an index. -/
structure Offer where
  name : FileName
  url : String

/-- The file as it is listed. -/
def Offer.artifact (o : Offer) : Artifact := ⟨o.name.text, o.url⟩

/-- The file belongs to the release. -/
def Offer.isOf (project version : String) (o : Offer) : Bool :=
  o.name.project == project && o.name.version == version

/-- What stands behind the first dash. -/
def FileName.rest (n : FileName) : List Char :=
  match n.tags with
  | none => n.version.toList ++ Sdist.suffix.toList
  | some tags => n.version.toList ++ '-' :: (tags ++ wheelSuffix).toList

theorem FileName.toList_text (n : FileName) :
    n.text.toList = n.project.toList ++ '-' :: n.rest := by
  unfold text rest
  cases n.tags with
  | none => simp [sdistName, rootName]
  | some tags => simp [wheelName, rootName]

theorem FileName.tarball_dash (n : FileName) : '-' ∉ n.version.toList ++ Sdist.suffix.toList := by
  rw [List.mem_append, not_or]
  exact ⟨n.version_dash, by decide⟩

theorem FileName.parts_of_text {n m : FileName} (h : n.text = m.text) :
    n.project = m.project ∧ n.version = m.version := by
  rw [← String.toList_inj, toList_text, toList_text,
    Chars.append_sep_inj n.project_dash m.project_dash] at h
  obtain ⟨hproject, hrest⟩ := h
  refine ⟨String.toList_inj.1 hproject, String.toList_inj.1 ?_⟩
  unfold rest at hrest
  cases hn : n.tags with
  | none =>
    cases hm : m.tags with
    | none =>
      simp only [hn, hm] at hrest
      exact List.append_cancel_right hrest
    | some tags =>
      simp only [hn, hm] at hrest
      have hmem : '-' ∈ m.version.toList ++ '-' :: (tags ++ wheelSuffix).toList := by simp
      exact absurd (hrest ▸ hmem) n.tarball_dash
  | some tags =>
    cases hm : m.tags with
    | none =>
      simp only [hn, hm] at hrest
      have hmem : '-' ∈ n.version.toList ++ '-' :: (tags ++ wheelSuffix).toList := by simp
      exact absurd (hrest ▸ hmem) m.tarball_dash
    | some tags' =>
      simp only [hn, hm] at hrest
      exact ((Chars.append_sep_inj n.version_dash m.version_dash).1 hrest).1

theorem FileName.prefix_rest (n : FileName) {v : List Char} (hv : '-' ∉ v) :
    v <+: n.rest ↔ v <+: n.versionText.toList := by
  unfold rest versionText
  cases n.tags with
  | none => rw [String.toList_append]
  | some tags =>
    rw [← List.isPrefixOf_iff_prefix, ← List.isPrefixOf_iff_prefix, Chars.isPrefixOf_append_sep hv]

theorem FileName.hasPrefix_versionText (n : FileName) :
    Text.hasPrefix n.versionText n.version = true := by
  rw [Text.hasPrefix_iff]
  unfold versionText
  cases n.tags with
  | none => exact ⟨_, String.toList_append⟩
  | some tags => exact ⟨[], (List.append_nil _).symm⟩

/-- The test of the selection, for a package name without dashes. -/
theorem FileName.hasPrefix_text (n : FileName) {package version : String}
    (hp : '-' ∉ package.toList) (hv : '-' ∉ version.toList) :
    Text.hasPrefix n.text (package ++ "-" ++ version) = true ↔
      n.project = package ∧ Text.hasPrefix n.versionText version = true := by
  have hversion : Text.hasPrefix n.versionText version = true ↔ version.toList <+: n.rest := by
    rw [n.prefix_rest hv, ← List.isPrefixOf_iff_prefix]
    rfl
  have hlist : ∀ more, (package ++ "-" ++ version).toList ++ more =
      package.toList ++ '-' :: (version.toList ++ more) := fun more => by simp
  rw [hversion, Text.hasPrefix_iff, toList_text]
  constructor
  · rintro ⟨more, hmore⟩
    rw [hlist, Chars.append_sep_inj n.project_dash hp] at hmore
    exact ⟨String.toList_inj.1 hmore.1, more, hmore.2.symm⟩
  · rintro ⟨rfl, more, hmore⟩
    exact ⟨more, by rw [hlist, hmore]⟩

end Artifact

namespace Release

open Artifact (FileName Offer)

/-! ## The first item of each name -/

/-- The items that are wanted and have no earlier item of the same name, in their order. -/
def firsts {α : Type} (name : α → String) (wanted : α → Bool) (items : List α) : List α :=
  (items.zipIdx.filter fun p => wanted p.1 &&
    (items.take p.2).all (name · != name p.1)).map Prod.fst

variable {α : Type} {name : α → String} {wanted wanted' : α → Bool} {items : List α}

theorem firsts_concat (items : List α) (a : α) : firsts name wanted (items ++ [a]) =
    firsts name wanted items ++ if wanted a && items.all (name · != name a) then [a] else [] := by
  unfold firsts
  rw [List.zipIdx_append, List.filter_append, List.map_append]
  congr 1
  · congr 1
    refine List.filter_congr fun p hp => ?_
    have hlt := (List.mem_zipIdx hp).2.1
    rw [List.take_append_of_le_length (by omega)]
  · rw [Nat.zero_add, List.zipIdx_singleton, List.filter_singleton,
      List.take_left, Bool.cond_eq_ite, apply_ite (List.map Prod.fst)]
    rfl

theorem firsts_congr (h : ∀ a ∈ items, wanted a = wanted' a) :
    firsts name wanted items = firsts name wanted' items := by
  unfold firsts
  congr 1
  refine List.filter_congr fun p hp => ?_
  rw [h p.1 (List.fst_mem_of_mem_zipIdx hp)]

theorem firsts_map {β : Type} (f : β → α) (items : List β) :
    firsts name wanted (items.map f) = (firsts (name ∘ f) (wanted ∘ f) items).map f := by
  induction items using List.reverseRecOn with
  | nil => rfl
  | append_singleton items b ih =>
    rw [List.map_append, List.map_singleton, firsts_concat, firsts_concat, ih,
      List.map_append, List.all_map]
    rw [apply_ite (List.map f)]
    rfl

/-- A test that only reads the name can as well be made first. -/
theorem firsts_filter (h : ∀ a b, name a = name b → wanted a = wanted b) (items : List α) :
    firsts name (fun _ => true) (items.filter wanted) = firsts name wanted items := by
  induction items using List.reverseRecOn with
  | nil => rfl
  | append_singleton items a ih =>
    rw [List.filter_append, List.filter_singleton, firsts_concat, ← ih]
    cases ha : wanted a with
    | false => simp
    | true =>
      have hall : (items.filter wanted).all (name · != name a) = items.all (name · != name a) := by
        rw [List.all_filter, Bool.eq_iff_iff, List.all_eq_true, List.all_eq_true]
        refine forall₂_congr fun b _ => ?_
        rw [Bool.or_eq_true, Bool.not_eq_true', bne_iff_ne]
        refine ⟨fun hb heq => ?_, Or.inr⟩
        rcases hb with hb | hb
        · rw [h b a heq, ha] at hb
          exact absurd hb (by simp)
        · exact hb heq
      rw [cond_true, firsts_concat, hall, Bool.true_and]

theorem firsts_sublist (items : List α) : (firsts name wanted items).Sublist items := by
  have hsub :=
    (List.filter_sublist
      (p := fun p : α × Nat => wanted p.1 && (items.take p.2).all (name · != name p.1))
      (l := items.zipIdx)).map Prod.fst
  rwa [List.zipIdx_map_fst] at hsub

theorem nodup_firsts (items : List α) : ((firsts name wanted items).map name).Nodup := by
  induction items using List.reverseRecOn with
  | nil => exact List.nodup_nil
  | append_singleton items a ih =>
    rw [firsts_concat]
    split_ifs with ha
    · rw [Bool.and_eq_true, List.all_eq_true] at ha
      rw [List.map_append, List.map_singleton, List.nodup_append]
      refine ⟨ih, List.nodup_singleton _, ?_⟩
      rintro n hn _ hm rfl
      obtain ⟨b, hb, rfl⟩ := List.mem_map.1 hn
      have hne := ha.2 b ((firsts_sublist items).subset hb)
      rw [List.mem_singleton] at hm
      exact absurd hm (bne_iff_ne.1 hne)
    · rwa [List.append_nil]

theorem mem_firsts {before after : List α} {a : α} (hwanted : wanted a = true)
    (hfirst : ∀ b ∈ before, name b ≠ name a) : a ∈ firsts name wanted (before ++ a :: after) := by
  unfold firsts
  refine List.mem_map.2 ⟨(a, before.length), List.mem_filter.2 ⟨?_, ?_⟩, rfl⟩
  · rw [List.mk_mem_zipIdx_iff_getElem?, List.getElem?_append_right le_rfl, Nat.sub_self,
      List.getElem?_cons_zero]
  · rw [List.take_left, hwanted, Bool.true_and, List.all_eq_true]
    exact fun b hb => bne_iff_ne.2 (hfirst b hb)

theorem wanted_of_mem_firsts {a : α} (h : a ∈ firsts name wanted items) :
    a ∈ items ∧ wanted a = true := by
  unfold firsts at h
  obtain ⟨p, hp, rfl⟩ := List.mem_map.1 h
  obtain ⟨hmem, hwanted⟩ := List.mem_filter.1 hp
  rw [Bool.and_eq_true] at hwanted
  exact ⟨List.fst_mem_of_mem_zipIdx hmem, hwanted.1⟩

/-- If items of one name are wanted alike, the name of a wanted item is there. -/
theorem exists_mem_firsts (h : ∀ a ∈ items, ∀ b ∈ items, name a = name b → wanted a = wanted b)
    {a : α} (ha : a ∈ items) (hwanted : wanted a = true) :
    ∃ b ∈ firsts name wanted items, name b = name a := by
  induction items using List.reverseRecOn generalizing a with
  | nil => exact absurd ha List.not_mem_nil
  | append_singleton items b ih =>
    rw [firsts_concat]
    by_cases hold : ∃ e ∈ items, name e = name a
    · obtain ⟨e, he, hname⟩ := hold
      have hwe : wanted e = true := by rw [h e (by simp [he]) a ha hname, hwanted]
      obtain ⟨e', he', hname'⟩ := ih (fun x hx y hy => h x (by simp [hx]) y (by simp [hy])) he hwe
      exact ⟨e', List.mem_append_left _ he', hname'.trans hname⟩
    · have hab : a = b := by
        rcases List.mem_append.1 ha with ha | ha
        · exact absurd ⟨a, ha, rfl⟩ hold
        · exact List.mem_singleton.1 ha
      subst hab
      have hnew : items.all (name · != name a) = true := by
        rw [List.all_eq_true]
        intro e he
        rw [bne_iff_ne]
        exact fun hname => hold ⟨e, he, hname⟩
      exact ⟨a, by simp [hwanted, hnew], rfl⟩

/-- Two selections are equal exactly if the same items are wanted. -/
theorem firsts_eq_iff {β : Type} (f : α → β) (hf : ∀ a b, f a = f b → name a = name b)
    (h : ∀ a ∈ items, ∀ b ∈ items, name a = name b → wanted a = wanted b)
    (h' : ∀ a ∈ items, ∀ b ∈ items, name a = name b → wanted' a = wanted' b) :
    (firsts name wanted items).map f = (firsts name wanted' items).map f ↔
    ∀ a ∈ items, wanted a = wanted' a := by
  have hmono : ∀ {p q : α → Bool}, (∀ a ∈ items, ∀ b ∈ items, name a = name b → p a = p b) →
      (∀ a ∈ items, ∀ b ∈ items, name a = name b → q a = q b) →
      (firsts name p items).map f = (firsts name q items).map f → ∀ a ∈ items, p a = true →
          q a = true := by
    intro p q hp hq heq a ha hpa
    obtain ⟨b, hb, hname⟩ := exists_mem_firsts hp ha hpa
    obtain ⟨e, he, hfe⟩ := List.mem_map.1 (heq ▸ List.mem_map_of_mem hb)
    obtain ⟨hmem, hqe⟩ := wanted_of_mem_firsts he
    rw [hq a ha e hmem (hname.symm.trans (hf e b hfe).symm), hqe]
  constructor
  · intro heq a ha
    rw [Bool.eq_iff_iff]
    exact ⟨hmono h h' heq a ha, hmono h' h heq.symm a ha⟩
  · intro heq
    rw [firsts_congr heq]

/-! ## The selection -/

theorem distinct_concat (seen : List String) (files : List Artifact) (a : Artifact) :
    distinct seen (files ++ [a]) =
    distinct seen files ++ if !seen.contains a.filename && files.all (·.filename != a.filename) then
    [a] else [] := by
  induction files generalizing seen with
  | nil => simp [distinct]
  | cons b files ih =>
    rw [List.cons_append, distinct, distinct]
    by_cases hb : seen.contains b.filename = true
    · have hne : seen.contains a.filename = false → (b.filename != a.filename) = true := by
        intro ha
        rw [bne_iff_ne]
        rintro heq
        rw [heq, ha] at hb
        exact absurd hb (by simp)
      rw [if_pos hb, if_pos hb, ih, List.all_cons]
      cases ha : seen.contains a.filename with
      | true => simp
      | false => rw [hne ha, Bool.true_and]
    · rw [if_neg hb, if_neg hb, ih, List.cons_append, List.contains_cons, List.all_cons,
        bne_comm (a := b.filename)]
      congr 3
      simp only [bne, Bool.not_or]
      grind

theorem distinct_eq (files : List Artifact) :
    distinct [] files = firsts Artifact.filename (fun _ => true) files := by
  induction files using List.reverseRecOn with
  | nil => rfl
  | append_singleton files a ih =>
    rw [distinct_concat, firsts_concat, ih, List.contains_nil, Bool.not_false]

/-- **The selection** of a package and a version: each name that starts with both counts once, at
its first file. -/
theorem select_eq (files : List Artifact) (package version : String) :
    select files package version =
    firsts Artifact.filename (fun a => Text.hasPrefix a.filename (package ++ "-" ++ version))
    files := by
  unfold select
  rw [distinct_eq]
  exact firsts_filter (fun a b heq => by rw [heq]) files

/-- The selection that the release stands for: the files of the package, in the form that its name
has in file names, and of the version. -/
def exactly (offers : List Offer) (package version : String) : List Artifact :=
  (firsts (·.name.text) (Offer.isOf (Name.normalize package) version) offers).map Offer.artifact

/-- Files of both: a name that is not in normal form and its normal form never start the same file
name. -/
theorem not_hasPrefix_of_isOf {o : Offer} {package version : String}
    (hnormal : Name.normalize package ≠ package)
    (hlast : ∀ c ∈ package.toList.getLast?, Name.isSeparator c = false)
    (h : o.isOf (Name.normalize package) version = true) :
    Text.hasPrefix o.name.text (package ++ "-" ++ version) = false := by
  rw [← Bool.not_eq_true]
  intro hprefix
  obtain ⟨more, hmore⟩ := Text.hasPrefix_iff.1 hprefix
  unfold Offer.isOf at h
  rw [Bool.and_eq_true, beq_iff_eq, beq_iff_eq] at h
  rw [FileName.toList_text, h.1] at hmore
  have hlist : Name.joinRuns false package.toList ++ '-' :: o.name.rest =
      package.toList ++ '-' :: (version.toList ++ more) := by
    simpa [Name.normalize] using hmore
  refine hnormal ?_
  unfold Name.normalize
  rw [Name.eq_joinRuns_of_append hlast hlist, String.ofList_toList]

/-- Only files of the release are selected, and all of them, exactly if the test of names agrees
with the parts of the names on all listed files. -/
theorem select_eq_exactly_iff (offers : List Offer) (package version : String) :
    select (offers.map Offer.artifact) package version = exactly offers package version ↔
      ∀ o ∈ offers, Text.hasPrefix o.name.text (package ++ "-" ++ version) =
        o.isOf (Name.normalize package) version := by
  rw [select_eq, firsts_map]
  refine firsts_eq_iff Offer.artifact (fun a b h => congrArg Artifact.filename h) ?_ ?_
  · intro a _ b _ heq
    exact congrArg (Text.hasPrefix · (package ++ "-" ++ version)) heq
  · intro a _ b _ heq
    obtain ⟨hproject, hversion⟩ := FileName.parts_of_text heq
    unfold Offer.isOf
    rw [hproject, hversion]

/-- For a name in normal form only another version can pass the test. -/
theorem hasPrefix_eq_isOf_iff (o : Offer) {package version : String}
    (hversion : '-' ∉ version.toList) (hnormal : Name.normalize package = package) :
    Text.hasPrefix o.name.text (package ++ "-" ++ version) =
      o.isOf (Name.normalize package) version ↔
      (o.name.project = package → Text.hasPrefix o.name.versionText version = true →
          o.name.version = version) := by
  have hdash : '-' ∉ package.toList := by
    rw [← hnormal]
    exact Name.separator_not_mem_normalize (by decide) (by decide) _
  have hof : o.isOf (Name.normalize package) version = true ↔ o.name.project = package ∧
      o.name.version = version := by
    unfold Offer.isOf
    rw [hnormal, Bool.and_eq_true, beq_iff_eq, beq_iff_eq]
  rw [Bool.eq_iff_iff, o.name.hasPrefix_text hdash hversion, hof]
  constructor
  · intro h hproject hprefix
    exact (h.1 ⟨hproject, hprefix⟩).2
  · intro h
    refine ⟨fun ⟨hproject, hprefix⟩ => ⟨hproject, h hproject hprefix⟩,
      fun ⟨hproject, heq⟩ => ⟨hproject, ?_⟩⟩
    rw [← heq]
    exact o.name.hasPrefix_versionText

/-- For another name no file passes the test that is of the release. -/
theorem hasPrefix_eq_isOf_iff_of_ne (o : Offer) {package version : String}
    (hnormal : Name.normalize package ≠ package)
    (hlast : ∀ c ∈ package.toList.getLast?, Name.isSeparator c = false) :
    Text.hasPrefix o.name.text (package ++ "-" ++ version) =
      o.isOf (Name.normalize package) version ↔
      Text.hasPrefix o.name.text (package ++ "-" ++ version) = false ∧
          o.isOf (Name.normalize package) version = false := by
  refine ⟨fun h => ?_, fun h => h.1.trans h.2.symm⟩
  cases hof : o.isOf (Name.normalize package) version with
  | false => exact ⟨h.trans hof, rfl⟩
  | true =>
    have hpasses := not_hasPrefix_of_isOf hnormal hlast hof
    rw [hpasses, hof] at h
    exact absurd h (by simp)

/-- **The selection is exact** where the test of names agrees with the parts of the names: each name
of the files that start with package and version counts once, at its first file, and these are the
files of the release exactly if every listed file passes the test when it is of the release. For a
package name in normal form this says that no listed file of the package has another version that
starts like the one asked for. For another name it says that no file is selected and none is of the
release. -/
theorem select_exact_iff (offers : List Offer) (package version : String)
    (hversion : '-' ∉ version.toList) :
    let listed := offers.map Offer.artifact
    let passes := fun o : Offer => Text.hasPrefix o.name.text (package ++ "-" ++ version)
    let ofRelease := Offer.isOf (Name.normalize package) version
    select listed package version = (firsts (·.name.text) passes offers).map Offer.artifact ∧
      (select listed package version = exactly offers package version ↔
        ∀ o ∈ offers, passes o = ofRelease o) ∧
      (Name.normalize package = package →
        (select listed package version = exactly offers package version ↔
          ∀ o ∈ offers, o.name.project = package →
            Text.hasPrefix o.name.versionText version = true →
            o.name.version = version)) ∧
      (Name.normalize package ≠ package →
        (∀ c ∈ package.toList.getLast?, Name.isSeparator c = false) →
        (select listed package version = exactly offers package version ↔
          ∀ o ∈ offers, passes o = false ∧ ofRelease o = false)) := by
  intro listed passes ofRelease
  have hexact := select_eq_exactly_iff offers package version
  refine ⟨?_, hexact, fun hnormal => hexact.trans ?_, fun hnormal hlast => hexact.trans ?_⟩
  · rw [select_eq, firsts_map]
    rfl
  · exact forall₂_congr fun o _ => hasPrefix_eq_isOf_iff o hversion hnormal
  · exact forall₂_congr fun o _ => hasPrefix_eq_isOf_iff_of_ne o hnormal hlast

/-- The source tarball of a version that goes on where `1.0.1` ends. -/
def laterOffer : Offer := ⟨⟨"pkg", "1.0.10", none, by decide, by decide⟩, "https://files/a"⟩

/-- A source tarball of a package whose name is not in normal form. -/
def dashedOffer : Offer := ⟨⟨"my_pkg", "1.0", none, by decide, by decide⟩, "https://files/b"⟩

theorem select_exact_later : '-' ∉ "1.0.10".toList ∧
    select [laterOffer.artifact] "pkg" "1.0.10" = exactly [laterOffer] "pkg" "1.0.10" := by
  have hdash : '-' ∉ "1.0.10".toList := by decide
  refine ⟨hdash, ((select_exact_iff [laterOffer] "pkg" "1.0.10" hdash).2.2.1 (by decide)).2 ?_⟩
  intro o ho _ _
  rw [List.mem_singleton.1 ho]
  rfl

/-- A file of another version is selected, and the only file of a release is not. -/
theorem select_not_exact :
    select [laterOffer.artifact] "pkg" "1.0.1" = [⟨"pkg-1.0.10.tar.gz", "https://files/a"⟩] ∧
      exactly [laterOffer] "pkg" "1.0.1" = [] ∧
      select [dashedOffer.artifact] "my-pkg" "1.0" = [] ∧
      exactly [dashedOffer] "my-pkg" "1.0" = [⟨"my_pkg-1.0.tar.gz", "https://files/b"⟩] := by
  decide +kernel

end Release
end Rebadge
