import Rebadge.Proofs.Release.Listing
import Rebadge.Proofs.Url.References

/-!
# Pages of directories

The page of a directory has a link for each file in it, and maybe links to other directories. If the
names are made of letters, digits and the usual signs, it is read back completely: each file is
found under its name, at the URL of the page with the name behind it, and nothing else is found
(`ofPage_directory`).
-/

namespace Rebadge.Release

open Url (IsName IsDirectory isNameChar inert_of_isNameChar)

/-- A link on the page of a directory. -/
inductive Link where
  /-- To a file in the directory; `dotted` says that the sign of the directory stands in front. -/
  | file (name : String) (dotted : Bool)
  /-- To a directory, maybe the one above. -/
  | directory (name : String)

/-- The text of the link. -/
def Link.reference : Link → String
  | file name false => name
  | file name true => "./" ++ name
  | directory name => name ++ "/"

/-- The file that the link names. -/
def Link.name? : Link → Option String
  | file name _ => some name
  | directory _ => none

/-- The names are made of the characters that file names are written with. -/
def Link.Plain : Link → Prop
  | file name _ => IsName name
  | directory name => ∀ c ∈ name.toList, isNameChar c = true

/-- The text has the links one after the other, with any texts between them, and the mark of a link
stands nowhere else. -/
def HasLinks (html : String) (links : List Link) : Prop :=
  ∃ front written, html.toList = front ++ writeLinks written ∧
      written.map Prod.fst = links.map (·.reference.toList) ∧
    occurrences linkMark html.toList = links.length

variable {page : Url} {html : String} {links : List Link} {l : Link}

/-! ## Single links -/

/-- The reference of a link is not empty, and no quote ends it early. -/
theorem Link.Plain.reference_toList (h : l.Plain) :
    l.reference.toList ≠ [] ∧ '"' ∉ l.reference.toList := by
  have hquote : ∀ {name : String}, (∀ c ∈ name.toList, isNameChar c = true) →
      '"' ∉ name.toList := fun hchars hmem =>
    (inert_of_isNameChar (hchars _ hmem)).ne_quote rfl
  cases l with
  | file name dotted =>
    cases dotted with
    | false => exact ⟨fun hnil => h.ne_empty (String.toList_eq_nil_iff.1 hnil), hquote h.chars⟩
    | true => exact ⟨by simp [reference], by simp [reference, hquote h.chars]⟩
  | directory name => exact ⟨by simp [reference], by simp [reference, hquote h]⟩

theorem artifactOf_link (hpage : IsDirectory page) (h : l.Plain) :
    artifactOf page l.reference = .ok (l.name?.map fun n => ⟨n, page.toText ++ n⟩) := by
  have hname : ∀ parts name, (page.withPath (parts ++ [name])).fileName =
      name := fun parts name => by
    simp [Url.fileName, Url.lastSegment?, Url.withPath]
  rw [artifactOf_eq_ok]
  cases l with
  | file name dotted =>
    obtain ⟨parts, hpath⟩ := hpage.path
    have hresolve : page.resolve (Link.file name dotted).reference =
        .ok (page.withPath (parts ++ [name])) := by
      cases dotted with
      | false => exact (Url.resolve_name hpage hpath h).1
      | true => exact (Url.resolve_name hpage hpath h).2
    refine ⟨_, hresolve, ?_⟩
    rw [hname, if_neg h.ne_empty, Url.artifact, hname, Url.toText_withPath hpage hpath]
    rfl
  | directory name =>
    obtain ⟨parts, hresolve⟩ := Url.resolve_subdirectory hpage h
    refine ⟨_, hresolve, ?_⟩
    rw [hname, if_pos rfl]
    rfl

/-! ## The page -/

theorem HasLinks.linksFrom (hhtml : HasLinks html links) (hlinks : ∀ l ∈ links, l.Plain) :
    linksFrom 0 html.toList = links.map Link.reference := by
  obtain ⟨front, written, htext, hrefs, hcount⟩ := hhtml
  have hplain : ∀ w ∈ written, w.1 ≠ [] ∧ '"' ∉ w.1 := by
    intro w hw
    obtain ⟨l, hl, heq⟩ := List.mem_map.1 (hrefs ▸ List.mem_map_of_mem hw)
    rw [← heq]
    exact (hlinks l hl).reference_toList
  have hlength : written.length = links.length := by simpa using congrArg List.length hrefs
  have hreads := reads_written hplain (by rw [← htext, hcount, hlength])
  have htexts : written.map (fun w => String.ofList w.1) = links.map Link.reference := by
    have heq := congrArg (List.map String.ofList) hrefs
    simpa [Function.comp_def] using heq
  rw [htext, ← htexts]
  exact (reads_iff.1 hreads).symm

/-- **The page of a directory is read back completely**: each name that a link has is found once, in
the order of the first links, and its URL is that of the page with the name behind it. -/
theorem ofPage_directory (hpage : IsDirectory page) (hhtml : HasLinks html links)
    (hlinks : ∀ l ∈ links, l.Plain) :
    ofPage html page = .ok ((firsts id (fun _ => true) (links.filterMap Link.name?)).map fun n =>
      ⟨n, page.toText ++ n⟩) := by
  have hfiles : (links.map Link.reference).mapM (artifactOf page) =
      .ok (links.map fun l => l.name?.map fun n => ⟨n, page.toText ++ n⟩) := by
    rw [except_mapM_ok, List.forall₂_map_left_iff, List.forall₂_map_right_iff, List.forall₂_same]
    exact fun l hl => artifactOf_link hpage (hlinks l hl)
  have hnames : (links.map fun l => l.name?.map fun n =>
      (⟨n, page.toText ++ n⟩ : Artifact)).filterMap id =
      (links.filterMap Link.name?).map fun n => ⟨n, page.toText ++ n⟩ := by
    rw [List.filterMap_map, List.map_filterMap]
    rfl
  unfold ofPage
  rw [hhtml.linksFrom hlinks, except_map_ok]
  refine ⟨_, hfiles, ?_⟩
  rw [hnames, distinct_eq, firsts_map]
  rfl

/-- Links up, to two files and to an older directory; one file is linked twice. -/
def nightlyDirectory : List Link :=
  [.directory "..", .file "p-1.whl" false, .directory "old", .file "p-1.tar.gz" true,
    .file "p-1.whl" true]

/-- The page of the directory. -/
def nightlyText : String :=
  "<a href=\"../\">..</a> <a href=\"p-1.whl\">p</a> <a href=\"old/\">old</a> " ++
    "<a href=\"./p-1.tar.gz\">href</a> <a href=\"./p-1.whl\">p</a>"

set_option maxRecDepth 2000 in
theorem nightlyText_hasLinks : HasLinks nightlyText nightlyDirectory := by
  have htext : nightlyText.toList = _ := String.toList_append.trans
    (congrArg₂ (· ++ ·) String.toList_ofList String.toList_ofList)
  unfold HasLinks
  rw [htext]
  exact ⟨"<a ".toList,
    [("../".toList, ">..</a> <a ".toList), ("p-1.whl".toList, ">p</a> <a ".toList),
      ("old/".toList, ">old</a> <a ".toList), ("./p-1.tar.gz".toList, ">href</a> <a ".toList),
    ("./p-1.whl".toList, ">p</a>".toList)], by decide +kernel⟩

theorem ofPage_nightlyDirectory : IsDirectory nightlyPage ∧ HasLinks nightlyText nightlyDirectory ∧
    (∀ l ∈ nightlyDirectory, l.Plain) ∧ ofPage nightlyText nightlyPage =
      .ok [⟨"p-1.whl", "https://files/nightly/p-1.whl"⟩,
        ⟨"p-1.tar.gz", "https://files/nightly/p-1.tar.gz"⟩] := by
  have hpage : IsDirectory nightlyPage := ⟨Or.inr rfl, ⟨["nightly"], rfl⟩, rfl, rfl⟩
  have hplain : ∀ l ∈ nightlyDirectory, l.Plain := by
    have hwheel : IsName "p-1.whl" :=
      ⟨List.all_eq_true.1 (by decide), by decide, by decide, by decide⟩
    have hsdist : IsName "p-1.tar.gz" :=
      ⟨List.all_eq_true.1 (by decide), by decide, by decide, by decide⟩
    simp only [nightlyDirectory, List.forall_mem_cons, Link.Plain]
    exact ⟨List.all_eq_true.1 (by decide), hwheel, List.all_eq_true.1 (by decide), hsdist, hwheel,
      List.forall_mem_nil _⟩
  refine ⟨hpage, nightlyText_hasLinks, hplain, ?_⟩
  rw [ofPage_directory hpage nightlyText_hasLinks hplain]
  decide +kernel

end Rebadge.Release
