import Rebadge.Disk
import Rebadge.Proofs.Except
import Rebadge.Proofs.Tree.Opening

/-!
# What operations on files need

Every operation finds its files first, so it succeeds only with paths that fit (`fits_of_locate`).
For each one a lemma says what it does at the location that its path leads to.
-/

namespace Rebadge

namespace Disk

variable {d d' : Disk} {l k : Location} {c : Content}

/-! ## Paths -/

/-- The path is neither empty nor too long and has no NUL. -/
structure Fits (path : String) : Prop where
  nul : Text.hasChar path '\x00' = false
  ne_empty : path ≠ ""
  size_lt : path.utf8ByteSize < pathLimit
  names : ∀ p ∈ Text.split path '/', p.utf8ByteSize ≤ Tree.maxNameSize

instance (path : String) : Decidable (Fits path) :=
  decidable_of_iff (Text.hasChar path '\x00' = false ∧ path ≠ "" ∧ path.utf8ByteSize < pathLimit ∧
    ∀ p ∈ Text.split path '/', p.utf8ByteSize ≤ Tree.maxNameSize)
    ⟨fun h => ⟨h.1, h.2.1, h.2.2.1, h.2.2.2⟩, fun h => ⟨h.nul, h.ne_empty, h.size_lt, h.names⟩⟩

/-- Where the walk of a path starts. -/
def startOf (d : Disk) (path : String) : Location := if Path.isAbsolute path then [] else d.cwd

theorem startOf_of_cwd (h : d'.cwd = d.cwd) (path : String) : d'.startOf path = d.startOf path := by
  unfold startOf
  rw [h]

theorem startOf_of_isAbsolute {p q : String} (h : Path.isAbsolute p = Path.isAbsolute q)
    (d : Disk) : d.startOf p = d.startOf q := by
  unfold startOf
  rw [h]

theorem locate_eq (h : Fits path) (d : Disk) (follow : Bool) :
    d.locate path follow =
      (d.tree.walk follow Tree.maxLinks (d.startOf path) (Text.split path '/')).mapError .os := by
  unfold locate
  rw [if_neg (by simp [h.nul]), if_neg h.ne_empty, if_neg (Nat.not_le.2 h.size_lt)]
  rfl

theorem fits_of_locate {follow : Bool} (h : d.locate path follow = .ok l) :
    Fits path ∧ d.tree.walk follow Tree.maxLinks (d.startOf path)
    (Text.split path '/') = .ok l := by
  unfold locate at h
  by_cases h1 : Text.hasChar path '\x00' = true
  · rw [if_pos h1] at h
    exact absurd h (by simp)
  rw [if_neg h1] at h
  by_cases h2 : path = ""
  · rw [if_pos h2] at h
    exact absurd h (by simp)
  rw [if_neg h2] at h
  by_cases h3 : pathLimit ≤ path.utf8ByteSize
  · rw [if_pos h3] at h
    exact absurd h (by simp)
  rw [if_neg h3] at h
  have hwalk : d.tree.walk follow Tree.maxLinks (d.startOf path) (Text.split path '/') = .ok l := by
    unfold startOf
    cases hw : d.tree.walk follow Tree.maxLinks (if Path.isAbsolute path then [] else d.cwd)
        (Text.split path '/') with
    | ok k =>
      rw [hw] at h
      simpa [Except.mapError] using h
    | error e =>
      rw [hw] at h
      exact absurd h (by simp [Except.mapError])
  exact ⟨⟨by simpa using h1, h2, Nat.not_le.1 h3, fun p hp => Tree.size_le_of_walk hwalk hp⟩, hwalk⟩

/-- On a larger tree a path leads to what it led to. -/
theorem locate_of_extends (hext : Tree.Extends d.tree d'.tree) (hcwd : d'.cwd = d.cwd)
    {follow : Bool} (hlocate : d.locate path follow = .ok l) (hsome : d.tree.get? l ≠ none) :
    d'.locate path follow = .ok l := by
  obtain ⟨hfits, hwalk⟩ := fits_of_locate hlocate
  rw [locate_eq hfits, startOf_of_cwd hcwd, Tree.walk_extends hext hwalk hsome]
  rfl

/-! ## Looking -/

theorem find_eq {follow : Bool} (hloc : d.locate path follow = .ok k) {n : Node}
    (hget : d.tree.get? k = some n) : d.find path follow = .ok (k, n) := by
  unfold find
  simp only [hloc, bind, Except.bind, hget]

theorem find_ok {follow : Bool} {n : Node} :
    d.find path follow = .ok (k, n) ↔ d.locate path follow = .ok k ∧ d.tree.get? k = some n := by
  refine ⟨fun h => ?_, fun h => find_eq h.1 h.2⟩
  unfold find at h
  cases hloc : d.locate path follow with
  | error e =>
    rw [hloc] at h
    exact absurd h (by simp [bind, Except.bind])
  | ok k' =>
    simp only [hloc, bind, Except.bind] at h
    cases hget : d.tree.get? k' with
    | none => simp [hget] at h
    | some n' =>
      simp only [hget, Except.ok.injEq, Prod.mk.injEq] at h
      obtain ⟨rfl, rfl⟩ := h
      exact ⟨rfl, hget⟩

theorem find_nofollow {n : Node} (h : d.find path true = .ok (k, n)) :
    ∃ found, d.find path false = .ok found := by
  obtain ⟨hlocate, hget⟩ := find_ok.1 h
  obtain ⟨hfits, hwalk⟩ := fits_of_locate hlocate
  obtain ⟨la, hla, hnode⟩ := Tree.walk_nofollow hwalk
  have hlocate' : d.locate path false = .ok la := by
    rw [locate_eq hfits, hla]
    rfl
  rcases hnode with rfl | ⟨target, hlink⟩
  · exact ⟨_, find_eq hlocate' hget⟩
  · exact ⟨_, find_eq hlocate' hlink⟩

theorem isDir_of_locate {m : Nat} (hloc : d.locate path true = .ok k)
    (hget : d.tree.get? k = some (.dir m)) : d.isDir path = true := by
  unfold isDir
  rw [find_eq hloc hget]
  rfl

theorem isDir_iff : d.isDir path = true ↔ ∃ k m, d.find path true = .ok (k, .dir m) := by
  unfold isDir
  cases d.find path true with
  | error e => simp
  | ok p =>
    obtain ⟨k, n⟩ := p
    cases n <;> simp [Node.isDir]

theorem read_ok : d.read path = .ok c ↔ ∃ k mode, d.find path true = .ok (k, .file c mode) := by
  unfold read
  rw [except_bind_ok]
  constructor
  · rintro ⟨⟨k, n⟩, hfind, h⟩
    cases n with
    | dir mode => simp at h
    | file c' mode =>
      obtain rfl : c' = c := by simpa using h
      exact ⟨k, mode, hfind⟩
    | link target => simp at h
  · rintro ⟨k, mode, hfind⟩
    exact ⟨_, hfind, rfl⟩

theorem list_ok {names : List String} : d.list path = .ok names ↔
    ∃ k mode, d.find path true = .ok (k, .dir mode) ∧ names = d.tree.names k := by
  unfold list
  rw [except_bind_ok]
  constructor
  · rintro ⟨⟨k, n⟩, hfind, h⟩
    cases n with
    | dir mode => exact ⟨k, mode, hfind, (Except.ok.inj h).symm⟩
    | file c mode => simp at h
    | link target => simp at h
  · rintro ⟨k, mode, hfind, rfl⟩
    exact ⟨_, hfind, rfl⟩

/-! ## Writing -/

theorem write_ok : d.write path c = .ok d' ↔ ∃ k, d.locate path true = .ok k ∧
    (d.tree.get? k = none ∧ Path.endsInSlash path = false ∧ d' = d.put k (.file c newFileMode) ∨
      ∃ c' mode, d.tree.get? k = some (.file c' mode) ∧ d' = d.put k (.file c mode)) := by
  unfold write
  rw [except_bind_ok]
  refine exists_congr fun k => and_congr_right fun _ => ?_
  cases d.tree.get? k with
  | none => cases Path.endsInSlash path <;> simp [eq_comm (a := d')]
  | some n =>
    cases n with
    | dir mode => simp
    | file c' mode =>
      constructor
      · intro h
        exact Or.inr ⟨c', mode, rfl, (Except.ok.inj h).symm⟩
      · rintro (⟨hnone, -⟩ | ⟨_, _, heq, rfl⟩)
        · exact absurd hnone (by simp)
        · cases heq
          rfl
    | link target => simp

/-- The mode of a file that is written: that of the file that is there, or that of a new one. -/
def writtenMode (t : Tree) (k : Location) : Nat :=
  match t.get? k with
  | some (.file _ mode) => mode
  | _ => newFileMode

theorem write_eq (hloc : d.locate path true = .ok k) (hslash : Path.endsInSlash path = false)
    (hnode : d.tree.get? k = none ∨ ∃ c' mode, d.tree.get? k = some (.file c' mode)) (c : Content) :
    d.write path c = .ok (d.put k (.file c (writtenMode d.tree k))) := by
  unfold writtenMode
  rcases hnode with hnone | ⟨c', mode, hfile⟩
  · rw [hnone]
    exact write_ok.2 ⟨k, hloc, Or.inl ⟨hnone, hslash, rfl⟩⟩
  · rw [hfile]
    exact write_ok.2 ⟨k, hloc, Or.inr ⟨c', mode, hfile, rfl⟩⟩

theorem replace_ok : d.replace path c = .ok d' ↔ ∃ k, d.locate path false = .ok k ∧
    (∀ mode, d.tree.get? k ≠ some (.dir mode)) ∧ d' = d.put k (.file c privateMode) := by
  unfold replace
  rw [except_bind_ok]
  refine exists_congr fun k => and_congr_right fun _ => ?_
  cases d.tree.get? k with
  | none => simp [eq_comm (a := d')]
  | some n => cases n <;> simp [eq_comm (a := d')]

/-! ## Making a directory -/

theorem makeDir_new (hloc : d.locate path false = .ok k)
    (hnone : d.tree.get? k = none) : d.makeDir path = .ok (d.put k (.dir newDirMode)) := by
  unfold makeDir create
  simp only [hloc, bind, Except.bind, hnone]

theorem makeDir_exists (hloc : d.locate path false = .ok k) {n : Node}
    (hsome : d.tree.get? k = some n) : d.makeDir path = .error (.os .alreadyExists) := by
  unfold makeDir create
  simp only [hloc, bind, Except.bind, hsome]

theorem makeDir_error {e : IoError} (hloc : d.locate path false = .error e) :
    d.makeDir path = .error e := by
  unfold makeDir create
  rw [hloc]
  rfl

theorem makeDir_ok (h : d.makeDir path = .ok d') :
    ∃ k, d.locate path false = .ok k ∧ d.tree.get? k = none ∧ d' = d.put k (.dir newDirMode) := by
  cases hloc : d.locate path false with
  | error e =>
    rw [makeDir_error hloc] at h
    exact absurd h (by simp)
  | ok k =>
    cases hget : d.tree.get? k with
    | none =>
      rw [makeDir_new hloc hget, Except.ok.injEq] at h
      exact ⟨k, rfl, hget, h.symm⟩
    | some n =>
      rw [makeDir_exists hloc hget] at h
      exact absurd h (by simp)

theorem ensureDir_new (hloc : d.locate path false = .ok k)
    (hnone : d.tree.get? k = none) : d.ensureDir path = (d.put k (.dir newDirMode), .ok ()) := by
  unfold ensureDir
  rw [makeDir_new hloc hnone]

theorem ensureDir_exists {m : Nat} (hloc : ∀ follow, d.locate path follow = .ok k)
    (hget : d.tree.get? k = some (.dir m)) : d.ensureDir path = (d, .ok ()) := by
  unfold ensureDir
  rw [makeDir_exists (hloc false) hget]
  simp [isDir_of_locate (hloc true) hget]

theorem fits_of_ensureDir (h : (d.ensureDir path).2 = .ok ()) : Fits path := by
  unfold ensureDir at h
  cases hmake : d.makeDir path with
  | ok d' =>
    obtain ⟨k, hloc, -⟩ := makeDir_ok hmake
    exact (fits_of_locate hloc).1
  | error e =>
    rw [hmake] at h
    by_cases hdir : d.isDir path = true
    · unfold isDir at hdir
      cases hfind : d.find path true with
      | error e => simp [hfind] at hdir
      | ok p =>
        obtain ⟨k, n⟩ := p
        exact (fits_of_locate (find_ok.1 hfind).1).1
    · simp [hdir] at h

theorem fits_of_ensureDirs (hne : path ≠ "") (h : (d.ensureDirs path).2 = .ok ()) : Fits path := by
  unfold ensureDirs Path.ancestors at h
  rw [ensureAncestors, if_neg hne] at h
  split at h
  · split at h
    · exact fits_of_ensureDir h
    · next hfailed => exact absurd h (by
        intro hok
        exact hfailed _ (Prod.ext rfl hok))
  · exact fits_of_ensureDir h

/-! ## What is there stays -/

theorem write_extends (h : d.write path c = .ok d') : Tree.Extends d.tree d'.tree := by
  obtain ⟨k, -, ⟨hnone, -, rfl⟩ | ⟨c', mode, hfile, rfl⟩⟩ := write_ok.1 h
  · exact Tree.extends_put (Tree.ne_nil_of_none hnone) hnone _
  · have hne := Tree.ne_nil_of_file hfile
    intro j n hj
    rw [show (d.put k (.file c mode)).tree.get? j = _ from Tree.get?_put hne _ j]
    by_cases hjk : j = k
    · rw [hjk, hfile, Option.some.injEq] at hj
      exact ⟨_, if_pos hjk, hj ▸ .file ..⟩
    · exact ⟨n, by rw [if_neg hjk, hj], .refl n⟩

theorem makeDir_extends (h : d.makeDir path = .ok d') : Tree.Extends d.tree d'.tree := by
  obtain ⟨k, -, hnone, rfl⟩ := makeDir_ok h
  exact Tree.extends_put (Tree.ne_nil_of_none hnone) hnone _

/-- What making a directory keeps, making one where one may be already keeps as well. -/
theorem ensureDir_keeps {P : Disk → Prop} (h : ∀ d', d.makeDir path = .ok d' → P d') (hd : P d) :
    P (d.ensureDir path).1 := by
  unfold ensureDir
  cases hmake : d.makeDir path with
  | ok d' => exact h d' hmake
  | error e => exact hd

theorem ensureAncestors_keeps {P : Disk → Prop} {paths : List String}
    (h : ∀ p ∈ paths, ∀ d d', P d → d.makeDir p = .ok d' → P d') (hd : P d) :
    P (d.ensureAncestors paths).1 := by
  induction paths with
  | nil => exact hd
  | cons path above ih =>
    obtain ⟨hpath, habove⟩ := List.forall_mem_cons.1 h
    have ih := ih habove
    rw [ensureAncestors]
    split
    · exact hd
    split
    · split
      · next d' heq =>
        rw [heq] at ih
        exact ensureDir_keeps (fun _ => hpath _ _ ih) ih
      · exact ih
    · exact ensureDir_keeps (fun _ => hpath _ _ hd) hd

theorem ensureAncestors_extends (d : Disk) (paths : List String) :
    Tree.Extends d.tree (d.ensureAncestors paths).1.tree :=
  ensureAncestors_keeps (P := fun d' => Tree.Extends d.tree d'.tree)
    (fun _ _ _ _ hext hmake => hext.trans (makeDir_extends hmake)) (.refl _)

end Disk
end Rebadge
