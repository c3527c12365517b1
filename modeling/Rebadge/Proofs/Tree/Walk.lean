import Rebadge.Tree

/-!
# Where paths lead in a changed tree

What a walk meets is told by one case for each name (`Visits`) and for each link it follows
(`Walks`), and what holds of walks is proved along these cases. A walk looks at directories and
links only, so it arrives at a node of the tree wherever more nodes were added or files got another
content (`walk_extends`). A location that is rewritten is where its path leads from then on, if the
path leads anywhere at all (`walk_rewritten`).
-/

namespace Rebadge

/-- The nodes are two directories, two files or the same link. -/
inductive Node.Like : Node → Node → Prop where
  | dir (m m' : Nat) : Like (.dir m) (.dir m')
  | file (c c' : Content) (m m' : Nat) : Like (.file c m) (.file c' m')
  | link (target : String) : Like (.link target) (.link target)

theorem Node.Like.refl (n : Node) : Node.Like n n := by
  cases n with
  | dir m => exact .dir m m
  | file c m => exact .file c c m m
  | link target => exact .link target

theorem Node.Like.trans {n n' n'' : Node} (h : Like n n') (h' : Like n' n'') : Like n n'' := by
  cases h with
  | dir => cases h'; exact .dir _ _
  | file => cases h'; exact .file _ _ _ _
  | link => exact h'

theorem Node.Like.ne_link {n n' : Node} (h : Node.Like n n') (hn : ∀ target, n ≠ .link target)
    (target : String) : n' ≠ .link target := by
  cases h with
  | dir => simp
  | file => simp
  | link target' => exact absurd rfl (hn target')

namespace Tree

variable {t t' : Tree} {f : Bool} {here : Location}

/-! ## One name -/

/-- A name that a directory can hold. -/
structure IsName (name : String) : Prop where
  ne_empty : name ≠ ""
  ne_current : name ≠ "."
  ne_parent : name ≠ ".."
  size_le : name.utf8ByteSize ≤ maxNameSize

theorem IsName.not_idle {name : String} (h : IsName name) : ¬ (name = "" ∨ name = ".") :=
  not_or.2 ⟨h.ne_empty, h.ne_current⟩

theorem trail_cons {m : Nat} (h : t.get? here = some (.dir m)) (f : Bool) (name : String)
    (rest : List String) :
    t.trail f here (name :: rest) =
      if name = "" ∨ name = "." then t.trail f here rest
      else if name = ".." then t.trail f here.dropLast rest
      else if maxNameSize < name.utf8ByteSize then .error .nameTooLong
      else
        match t.get? (here ++ [name]) with
        | some (.link target) =>
          if rest = [] ∧ !f then .ok (.arrived (here ++ [name]))
          else if target = "" then .error .notFound
          else .ok (.atLink here target rest)
        | some _ => t.trail f (here ++ [name]) rest
        | none =>
            if rest.all (· == "") then .ok (.arrived (here ++ [name])) else .error .notFound := by
  rewrite [trail, h]
  rfl

theorem dir_of_trail {names : List String} {r : Trail} (h : t.trail f here names = .ok r)
    (hne : names ≠ []) : ∃ m, t.get? here = some (.dir m) := by
  obtain ⟨name, rest, rfl⟩ := List.exists_cons_of_ne_nil hne
  rw [trail] at h
  cases hget : t.get? here with
  | none => simp [hget] at h
  | some n =>
    cases n with
    | dir m => exact ⟨m, rfl⟩
    | file c m => simp [hget] at h
    | link target => simp [hget] at h

theorem trail_nil (t : Tree) (f : Bool) (here : Location) :
    t.trail f here [] = .ok (.arrived here) := by
  rw [trail]

theorem trail_stay {m : Nat} (h : t.get? here = some (.dir m)) {name : String}
    (hname : name = "" ∨ name = ".") (f : Bool) (rest : List String) :
    t.trail f here (name :: rest) = t.trail f here rest := by
  rw [trail_cons h, if_pos hname]

theorem trail_up {m : Nat} (h : t.get? here = some (.dir m)) (f : Bool) (rest : List String) :
    t.trail f here (".." :: rest) = t.trail f here.dropLast rest := by
  rw [trail_cons h, if_neg (by decide), if_pos rfl]

theorem trail_name {m : Nat} (h : t.get? here = some (.dir m)) {name : String}
    (hname : IsName name) (f : Bool) (rest : List String) : t.trail f here (name :: rest) =
      match t.get? (here ++ [name]) with
      | some (.link target) =>
        if rest = [] ∧ !f then .ok (.arrived (here ++ [name]))
        else if target = "" then .error .notFound
        else .ok (.atLink here target rest)
      | some _ => t.trail f (here ++ [name]) rest
      | none =>
          if rest.all (· == "") then .ok (.arrived (here ++ [name])) else .error .notFound := by
  rewrite [trail_cons h, if_neg hname.not_idle, if_neg hname.ne_parent,
    if_neg (Nat.not_lt.2 hname.size_le)]
  rfl

theorem trail_enter {m : Nat} (h : t.get? here = some (.dir m)) {name : String}
    (hname : IsName name) {n : Node} (hget : t.get? (here ++ [name]) = some n)
    (hlink : ∀ target, n ≠ .link target) (f : Bool) (rest : List String) :
    t.trail f here (name :: rest) = t.trail f (here ++ [name]) rest := by
  rw [trail_name h hname, hget]
  cases n with
  | dir m => rfl
  | file c m => rfl
  | link target => exact absurd rfl (hlink target)

theorem trail_idle {m : Nat} (h : t.get? here = some (.dir m)) {names : List String}
    (hidle : ∀ p ∈ names, p = "" ∨ p = ".") (f : Bool) :
    t.trail f here names = .ok (.arrived here) := by
  induction names with
  | nil => exact trail_nil t f here
  | cons name rest ih =>
    obtain ⟨hname, hrest⟩ := List.forall_mem_cons.1 hidle
    rw [trail_stay h hname, ih hrest]

theorem trail_empty {m : Nat} (h : t.get? here = some (.dir m)) {names : List String}
    (hn : names.all (· == "") = true) (f : Bool) : t.trail f here names = .ok (.arrived here) :=
  trail_idle h (fun p hp => Or.inl (by simpa using List.all_eq_true.1 hn p hp)) f

/-! ## Names one by one -/

/-- The walk from a directory along names arrives, or meets a link to follow, there: one case for
what a name does. -/
inductive Visits (t : Tree) (f : Bool) : Location → List String → Trail → Prop where
  /-- No name is left. -/
  | done (here : Location) : Visits t f here [] (.arrived here)
  /-- An empty name or a dot stays. -/
  | stay {here : Location} {m : Nat} {name : String} {rest : List String} {r : Trail}
      (hdir : t.get? here = some (.dir m)) (hname : name = "" ∨ name = ".")
      (next : Visits t f here rest r) :
      Visits t f here (name :: rest) r
  /-- Two dots go up. -/
  | up {here : Location} {m : Nat} {rest : List String} {r : Trail}
      (hdir : t.get? here = some (.dir m)) (next : Visits t f here.dropLast rest r) :
      Visits t f here (".." :: rest) r
  /-- The name of a directory or a file goes there. -/
  | enter {here : Location} {m : Nat} {name : String} {rest : List String} {r : Trail} {n : Node}
      (hdir : t.get? here = some (.dir m)) (hname : IsName name)
      (hget : t.get? (here ++ [name]) = some n) (hlink : ∀ target, n ≠ .link target)
      (next : Visits t f (here ++ [name]) rest r) :
      Visits t f here (name :: rest) r
  /-- A name that is missing is the last one, up to slashes. -/
  | missing {here : Location} {m : Nat} {name : String} {rest : List String}
      (hdir : t.get? here = some (.dir m)) (hname : IsName name)
      (hget : t.get? (here ++ [name]) = none) (hrest : rest.all (· == "") = true) :
      Visits t f here (name :: rest) (.arrived (here ++ [name]))
  /-- A link at the end is not followed. -/
  | lastLink {here : Location} {m : Nat} {name : String} {target : String}
      (hdir : t.get? here = some (.dir m)) (hname : IsName name)
      (hget : t.get? (here ++ [name]) = some (.link target)) (hf : f = false) :
      Visits t f here [name] (.arrived (here ++ [name]))
  /-- Any other link is to be followed. -/
  | link {here : Location} {m : Nat} {name : String} {target : String} {rest : List String}
      (hdir : t.get? here = some (.dir m)) (hname : IsName name)
      (hget : t.get? (here ++ [name]) = some (.link target)) (hf : rest = [] → f = true)
      (htarget : target ≠ "") :
      Visits t f here (name :: rest) (.atLink here target rest)

theorem visits_of_trail {names : List String} {r : Trail} (h : t.trail f here names = .ok r) :
    Visits t f here names r := by
  induction names generalizing here with
  | nil =>
    rw [trail_nil] at h
    rw [← Except.ok.inj h]
    exact .done here
  | cons name rest ih =>
    obtain ⟨m, hdir⟩ := dir_of_trail h (by simp)
    by_cases hstay : name = "" ∨ name = "."
    · rw [trail_stay hdir hstay] at h
      exact .stay hdir hstay (ih h)
    by_cases hup : name = ".."
    · rw [hup, trail_up hdir] at h
      rw [hup]
      exact .up hdir (ih h)
    by_cases hsize : maxNameSize < name.utf8ByteSize
    · rw [trail_cons hdir, if_neg hstay, if_neg hup, if_pos hsize] at h
      exact absurd h (by simp)
    rw [not_or] at hstay
    have hname : IsName name := ⟨hstay.1, hstay.2, hup, Nat.not_lt.1 hsize⟩
    rw [trail_name hdir hname] at h
    cases hget : t.get? (here ++ [name]) with
    | none =>
      simp only [hget] at h
      split at h
      · next hrest => exact Except.ok.inj h ▸ .missing hdir hname hget hrest
      · exact absurd h (by simp)
    | some n =>
      cases n with
      | dir m =>
        simp only [hget] at h
        exact .enter hdir hname hget (by simp) (ih h)
      | file c m =>
        simp only [hget] at h
        exact .enter hdir hname hget (by simp) (ih h)
      | link target =>
        simp only [hget] at h
        split at h
        · next hlast =>
          rw [← Except.ok.inj h, hlast.1]
          exact .lastLink hdir hname hget (by simpa using hlast.2)
        split at h
        · exact absurd h (by simp)
        · next hlast htarget =>
            exact Except.ok.inj h ▸ .link hdir hname hget (by simpa using hlast) htarget

theorem Visits.trail {names : List String} {r : Trail} (h : Visits t f here names r) :
    t.trail f here names = .ok r := by
  induction h with
  | done here => exact trail_nil t f here
  | stay hdir hname _ ih => rw [trail_stay hdir hname, ih]
  | up hdir _ ih => rw [trail_up hdir, ih]
  | enter hdir hname hget hlink _ ih => rw [trail_enter hdir hname hget hlink, ih]
  | missing hdir hname hget hrest =>
    rw [trail_name hdir hname, hget]
    exact if_pos hrest
  | lastLink hdir hname hget hf =>
    rw [trail_name hdir hname, hget]
    exact if_pos ⟨rfl, by rw [hf]; rfl⟩
  | link hdir hname hget hf htarget =>
    rw [trail_name hdir hname, hget]
    exact (if_neg fun h => by simp [hf h.1] at h).trans (if_neg htarget)

/-- **A trail**, name by name. -/
theorem trail_eq_ok_iff {names : List String} {r : Trail} :
    t.trail f here names = .ok r ↔ Visits t f here names r :=
  ⟨visits_of_trail, Visits.trail⟩

theorem Visits.of_not_dir {names : List String} {r : Trail} (h : Visits t f here names r)
    (hdir : ∀ m, t.get? here ≠ some (.dir m)) : names = [] ∧ r = .arrived here := by
  cases h with
  | done => exact ⟨rfl, rfl⟩
  | stay h => exact absurd h (hdir _)
  | up h => exact absurd h (hdir _)
  | enter h => exact absurd h (hdir _)
  | missing h => exact absurd h (hdir _)
  | lastLink h => exact absurd h (hdir _)
  | link h => exact absurd h (hdir _)

/-! ## Links one by one -/

theorem walk_eq (t : Tree) (f : Bool) (budget : Nat) (here : Location) (names : List String) :
    t.walk f budget here names =
      match t.trail f here names with
      | .error e => .error e
      | .ok (.arrived l) => .ok l
      | .ok (.atLink dir target rest) =>
        match budget with
        | 0 => .error .tooManyLinks
        | budget + 1 =>
          t.walk f budget (if Path.isAbsolute target then [] else dir)
              (Text.split target '/' ++ rest) := by
  cases budget with
  | zero =>
    rewrite [walk]
    rfl
  | succ budget =>
    rewrite [walk]
    rfl

/-- Where the names of a link start. -/
def linkStart (dir : Location) (target : String) : Location :=
  if Path.isAbsolute target then [] else dir

/-- The walk from a directory along names arrives, following so many links at most. -/
inductive Walks (t : Tree) (f : Bool) (l : Location) : Nat → Location → List String → Prop where
  | arrived {budget : Nat} {here : Location} {names : List String}
      (htrail : t.trail f here names = .ok (.arrived l)) : Walks t f l budget here names
  | followed {budget : Nat} {here : Location} {names : List String}
      {dir : Location} {target : String} {rest : List String}
      (htrail : t.trail f here names = .ok (.atLink dir target rest))
      (next : Walks t f l budget (linkStart dir target) (Text.split target '/' ++ rest)) :
      Walks t f l (budget + 1) here names

theorem walk_of_trail {budget : Nat} {names : List String} {l : Location}
    (h : t.trail f here names = .ok (.arrived l)) : t.walk f budget here names = .ok l := by
  rw [walk_eq, h]

theorem walk_followed {names : List String} {dir : Location} {target : String} {rest : List String}
    (h : t.trail f here names = .ok (.atLink dir target rest)) (budget : Nat) :
    t.walk f (budget + 1) here names =
      t.walk f budget (linkStart dir target) (Text.split target '/' ++ rest) := by
  rw [walk_eq, h]
  rfl

/-- **A walk**, link by link. -/
theorem walk_eq_ok_iff {budget : Nat} {names : List String} {l : Location} :
    t.walk f budget here names = .ok l ↔ Walks t f l budget here names := by
  constructor
  · intro h
    induction budget generalizing here names with
    | zero =>
      rw [walk_eq] at h
      split at h
      · exact absurd h (by simp)
      · next k htrail => exact .arrived (Except.ok.inj h ▸ htrail)
      · exact absurd h (by simp)
    | succ budget ih =>
      rw [walk_eq] at h
      split at h
      · exact absurd h (by simp)
      · next k htrail => exact .arrived (Except.ok.inj h ▸ htrail)
      · next dir target rest htrail => exact .followed htrail (ih h)
  · intro h
    induction h with
    | arrived htrail => exact walk_of_trail htrail
    | followed htrail _ ih => rw [walk_followed htrail, ih]

/-! ## Trees with more nodes -/

/-- The nodes of the first tree are in the second one, up to the contents of files. -/
def Extends (t t' : Tree) : Prop := ∀ k n, t.get? k = some n → ∃ n', t'.get? k = some n' ∧ n.Like n'

theorem Extends.refl (t : Tree) : Extends t t := fun _ n h => ⟨n, h, .refl n⟩

theorem Extends.trans {t'' : Tree} (h : Extends t t') (h' : Extends t' t'') : Extends t t'' := by
  intro k n hn
  obtain ⟨n', hn', hlike⟩ := h k n hn
  obtain ⟨n'', hn'', hlike'⟩ := h' k n' hn'
  exact ⟨n'', hn'', hlike.trans hlike'⟩

theorem Extends.dir (h : Extends t t') {k : Location} {m : Nat} (hk : t.get? k = some (.dir m)) :
    ∃ m', t'.get? k = some (.dir m') := by
  obtain ⟨n', hn', hlike⟩ := h k _ hk
  cases hlike with
  | dir m m' => exact ⟨m', hn'⟩

theorem trail_extends (h : Extends t t') {names : List String} {r : Trail}
    (ht : t.trail f here names = .ok r) (hr : ∀ k, r = .arrived k → t.get? k ≠ none) :
    t'.trail f here names = .ok r := by
  rw [trail_eq_ok_iff] at ht ⊢
  induction ht with
  | done here => exact .done here
  | stay hdir hname _ ih =>
    obtain ⟨m', hdir'⟩ := h.dir hdir
    exact .stay hdir' hname (ih hr)
  | up hdir _ ih =>
    obtain ⟨m', hdir'⟩ := h.dir hdir
    exact .up hdir' (ih hr)
  | enter hdir hname hget hlink _ ih =>
    obtain ⟨m', hdir'⟩ := h.dir hdir
    obtain ⟨n', hget', hlike⟩ := h _ _ hget
    exact .enter hdir' hname hget' (hlike.ne_link hlink) (ih hr)
  | missing _ _ hget => exact absurd hget (hr _ rfl)
  | lastLink hdir hname hget hf =>
    obtain ⟨m', hdir'⟩ := h.dir hdir
    obtain ⟨_, hget', ⟨⟩⟩ := h _ _ hget
    exact .lastLink hdir' hname hget' hf
  | link hdir hname hget hf htarget =>
    obtain ⟨m', hdir'⟩ := h.dir hdir
    obtain ⟨_, hget', ⟨⟩⟩ := h _ _ hget
    exact .link hdir' hname hget' hf htarget

/-- **More nodes.** A walk to a node leads there in every tree with more nodes. -/
theorem walk_extends (h : Extends t t') {budget : Nat} {names : List String} {l : Location}
    (hw : t.walk f budget here names = .ok l) (hl : t.get? l ≠ none) :
    t'.walk f budget here names = .ok l := by
  rw [walk_eq_ok_iff] at hw ⊢
  induction hw with
  | arrived htrail => exact .arrived (trail_extends h htrail (by rintro k ⟨⟩; exact hl))
  | followed htrail _ ih => exact .followed (trail_extends h htrail (by simp)) ih

/-! ## Trees with one node rewritten -/

/-- What was no directory became a file, or a node that was missing became a directory; all other
nodes are those of the first tree, up to the contents of files. -/
structure Rewrites (l : Location) (t t' : Tree) : Prop where
  others : ∀ k n, k ≠ l → t.get? k = some n → ∃ n', t'.get? k = some n' ∧ n.Like n'
  node : (∀ m, t.get? l ≠ some (.dir m)) ∧ (∃ c m, t'.get? l = some (.file c m)) ∨
    t.get? l = none ∧ ∃ m, t'.get? l = some (.dir m)

theorem Rewrites.not_dir {l : Location} (h : Rewrites l t t') (m : Nat) :
    t.get? l ≠ some (.dir m) := by
  rcases h.node with ⟨hnot, -⟩ | ⟨hnone, -⟩
  · exact hnot m
  · simp [hnone]

theorem Rewrites.dir {l : Location} (h : Rewrites l t t') {k : Location} {m : Nat}
    (hk : t.get? k = some (.dir m)) : ∃ m', t'.get? k = some (.dir m') := by
  have hne : k ≠ l := by
    rintro rfl
    exact h.not_dir m hk
  obtain ⟨n', hn', hlike⟩ := h.others k _ hne hk
  cases hlike with
  | dir m m' => exact ⟨m', hn'⟩

/-- The walk fails in the second tree, at a node that was missing or a link and is no directory
now. -/
structure Blocked (l : Location) (t t' : Tree) (r : Trail) (x : Except Errno Trail) : Prop where
  error : ∃ e, x = .error e
  not_dir : ∀ m, t'.get? l ≠ some (.dir m)
  was : t.get? l = none ∨ ∃ target rest, t.get? l = some (.link target) ∧
    r = .atLink l.dropLast target rest

theorem trail_of_file {c : Content} {m : Nat} (h : t.get? here = some (.file c m))
    (f : Bool) {rest : List String} (hrest : rest ≠ []) :
    t.trail f here rest = .error .notADirectory := by
  obtain ⟨name, rest, rfl⟩ := List.exists_cons_of_ne_nil hrest
  rw [trail, h]

/-- Along names that lead to the rewritten node, the walk is the same or fails; it can only fail at
a new file. -/
theorem trail_rewritten {l : Location} (h : Rewrites l t t') {names : List String} {r : Trail}
    (ht : t.trail false here names = .ok r) (hr : ∀ k, r = .arrived k → k = l) (f : Bool) :
    t'.trail f here names = .ok r ∨ Blocked l t t' r (t'.trail f here names) := by
  rw [trail_eq_ok_iff] at ht
  induction ht with
  | done here => exact Or.inl (trail_nil t' f here)
  | stay hdir hname _ ih =>
    obtain ⟨m', hdir'⟩ := h.dir hdir
    rw [trail_stay hdir' hname]
    exact ih hr
  | up hdir _ ih =>
    obtain ⟨m', hdir'⟩ := h.dir hdir
    rw [trail_up hdir']
    exact ih hr
  | @enter here m name rest r n hdir hname hget hlink next ih =>
    obtain ⟨m', hdir'⟩ := h.dir hdir
    by_cases hk : here ++ [name] = l
    · rw [hk] at hget next
      rcases h.node with ⟨hnot, c, mode, hfile⟩ | ⟨hnone, -⟩
      · obtain ⟨rfl, rfl⟩ := next.of_not_dir hnot
        rw [trail_enter hdir' hname (hk ▸ hfile) (by simp), hk]
        exact Or.inl (trail_nil t' f l)
      · exact absurd (hget.symm.trans hnone) (by simp)
    · obtain ⟨n', hget', hlike⟩ := h.others _ _ hk hget
      rw [trail_enter hdir' hname hget' (hlike.ne_link hlink)]
      exact ih hr
  | @missing here m name rest hdir hname hget hrest =>
    obtain ⟨m', hdir'⟩ := h.dir hdir
    obtain rfl := hr _ rfl
    rcases h.node with ⟨-, c, mode, hfile⟩ | ⟨-, mode, hnew⟩
    · rw [trail_enter hdir' hname hfile (by simp)]
      by_cases hnil : rest = []
      · rw [hnil]
        exact Or.inl (trail_nil t' f _)
      · exact Or.inr ⟨⟨_, trail_of_file hfile f hnil⟩, by simp [hfile], Or.inl hget⟩
    · rw [trail_enter hdir' hname hnew (by simp)]
      exact Or.inl (trail_empty hnew hrest f)
  | @lastLink here m name target hdir hname hget =>
    obtain ⟨m', hdir'⟩ := h.dir hdir
    obtain rfl := hr _ rfl
    rcases h.node with ⟨-, c, mode, hfile⟩ | ⟨hnone, -⟩
    · rw [trail_enter hdir' hname hfile (by simp)]
      exact Or.inl (trail_nil t' f _)
    · exact absurd (hget.symm.trans hnone) (by simp)
  | @link here m name target rest hdir hname hget hf htarget =>
    obtain ⟨m', hdir'⟩ := h.dir hdir
    have hrest : rest ≠ [] := fun hnil => absurd (hf hnil) (by simp)
    by_cases hk : here ++ [name] = l
    · subst hk
      rcases h.node with ⟨-, c, mode, hfile⟩ | ⟨hnone, -⟩
      · rw [trail_enter hdir' hname hfile (by simp)]
        refine Or.inr
          ⟨⟨_, trail_of_file hfile f hrest⟩, by simp [hfile], Or.inr ⟨target, rest, hget, ?_⟩⟩
        rw [List.dropLast_concat]
      · exact absurd (hget.symm.trans hnone) (by simp)
    · obtain ⟨_, hget', ⟨⟩⟩ := h.others _ _ hk hget
      exact Or.inl (Visits.link hdir' hname hget' (fun hnil => absurd hnil hrest) htarget).trail

/-- **A rewritten node.** The path of a node that is rewritten leads there, or nowhere if the node
is now a file that the path leads through. -/
theorem walk_rewritten {l : Location} (h : Rewrites l t t') {budget : Nat} {names : List String}
    (hw : t.walk false budget here names = .ok l) (f : Bool) : t'.walk f budget here names = .ok l ∨
      (∀ m, t'.get? l ≠ some (.dir m)) ∧ ∃ e, t'.walk f budget here names = .error e := by
  rw [walk_eq_ok_iff] at hw
  induction hw with
  | arrived htrail =>
    rcases trail_rewritten h htrail (by rintro k ⟨⟩; rfl) f with ht' | ⟨⟨e, ht'⟩, hne, -⟩
    · exact Or.inl (walk_of_trail ht')
    · exact Or.inr ⟨hne, e, by rw [walk_eq, ht']⟩
  | followed htrail _ ih =>
    rcases trail_rewritten h htrail (by simp) f with ht' | ⟨⟨e, ht'⟩, hne, -⟩
    · rw [walk_followed ht']
      exact ih
    · exact Or.inr ⟨hne, e, by rw [walk_eq, ht']⟩

end Tree
end Rebadge
