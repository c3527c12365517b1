import Rebadge.Proofs.Tree.Walk

/-!
# Walks below a directory

A path that leads through a directory goes on from there (`walk_append`), and one that goes on leads
through a directory (`walk_left`). Below a directory a walk visits the names one by one: it arrives
if all directories on the way are there (`walk_along`), and fails at the first one that is missing
(`walk_missing`). No walk passes a name that is too long (`size_le_of_walk`).
-/

namespace Rebadge.Tree

variable {t : Tree} {f : Bool} {here k : Location}

/-! ## Two parts of a path -/

theorem trail_append_arrived {m : Nat} (hk : t.get? k = some (.dir m)) {xs : List String}
    (h : t.trail true here xs = .ok (.arrived k)) (f : Bool) (ys : List String) :
    t.trail f here (xs ++ ys) = t.trail f k ys := by
  rw [trail_eq_ok_iff] at h
  generalize hr : Trail.arrived k = r at h
  induction h with
  | done => rw [Trail.arrived.inj hr, List.nil_append]
  | stay hdir hname _ ih => rw [List.cons_append, trail_stay hdir hname, ih hr]
  | up hdir _ ih => rw [List.cons_append, trail_up hdir, ih hr]
  | enter hdir hname hget hlink _ ih =>
    rw [List.cons_append, trail_enter hdir hname hget hlink, ih hr]
  | missing _ _ hget =>
    rw [← Trail.arrived.inj hr, hk] at hget
    exact absurd hget (by simp)
  | lastLink _ _ _ hf => exact absurd hf (by simp)
  | link => exact absurd hr (by simp)

theorem trail_append_atLink {xs : List String} {dir : Location}
    {target : String} {rest : List String}
    (h : t.trail true here xs = .ok (.atLink dir target rest)) (f : Bool)
    {ys : List String} (hys : ys ≠ []) :
    t.trail f here (xs ++ ys) = .ok (.atLink dir target (rest ++ ys)) := by
  rw [trail_eq_ok_iff] at h
  generalize hr : Trail.atLink dir target rest = r at h
  induction h with
  | done => exact absurd hr (by simp)
  | stay hdir hname _ ih => rw [List.cons_append, trail_stay hdir hname, ih hr]
  | up hdir _ ih => rw [List.cons_append, trail_up hdir, ih hr]
  | enter hdir hname hget hlink _ ih =>
    rw [List.cons_append, trail_enter hdir hname hget hlink, ih hr]
  | missing => exact absurd hr (by simp)
  | lastLink => exact absurd hr (by simp)
  | link hdir hname hget _ htarget =>
    obtain ⟨rfl, rfl, rfl⟩ := Trail.atLink.inj hr
    exact (Visits.link hdir hname hget (by simp [hys]) htarget).trail

/-- **Two parts.** A path whose first part leads to a directory goes on from there. -/
theorem walk_append {m : Nat} (hk : t.get? k = some (.dir m)) {budget : Nat} {xs : List String}
    (h : t.walk true budget here xs = .ok k) (f : Bool) {ys : List String} (hys : ys ≠ []) :
    ∃ budget', t.walk f budget here (xs ++ ys) = t.walk f budget' k ys := by
  rw [walk_eq_ok_iff] at h
  induction h with
  | @arrived budget here xs htrail =>
    refine ⟨budget, ?_⟩
    rw [walk_eq, walk_eq, trail_append_arrived hk htrail]
  | followed htrail _ ih =>
    rw [walk_followed (trail_append_atLink htrail f hys), ← List.append_assoc]
    exact ih

/-- The first part of a walk arrives, unless there is a link to follow. What it arrives at is a
directory; only if nothing is there may slashes follow. -/
theorem trail_left {r : Trail} {xs ys : List String} (h : t.trail f here (xs ++ ys) = .ok r)
    (hys : ys ≠ []) :
    (∃ k, t.trail true here xs = .ok (.arrived k) ∧
      ((∃ m, t.get? k = some (.dir m)) ∨ t.get? k = none ∧ r = .arrived k)) ∨
      ∃ dir target rest, t.trail true here xs = .ok (.atLink dir target rest) ∧
        r = .atLink dir target (rest ++ ys) := by
  induction xs generalizing here with
  | nil =>
    exact Or.inl ⟨here, trail_nil t true here, Or.inl (dir_of_trail h hys)⟩
  | cons name rest ih =>
    rw [List.cons_append, trail_eq_ok_iff] at h
    generalize hnames : rest ++ ys = names at h
    cases h with
    | stay hdir hname next =>
      rw [trail_stay hdir hname]
      exact ih (hnames ▸ next.trail)
    | up hdir next =>
      rw [trail_up hdir]
      exact ih (hnames ▸ next.trail)
    | enter hdir hname hget hlink next =>
      rw [trail_enter hdir hname hget hlink]
      exact ih (hnames ▸ next.trail)
    | missing hdir hname hget hall =>
      rw [← hnames, List.all_append, Bool.and_eq_true] at hall
      exact Or.inl ⟨here ++ [name], (Visits.missing hdir hname hget hall.1).trail,
        Or.inr ⟨hget, rfl⟩⟩
    | lastLink => exact absurd (List.append_eq_nil_iff.1 hnames).2 hys
    | link hdir hname hget _ htarget =>
      exact Or.inr ⟨here, _, rest,
        (Visits.link hdir hname hget (fun _ => rfl) htarget).trail, by rw [hnames]⟩

/-- **A path goes on** from a directory; where nothing is, only slashes may follow. -/
theorem walk_left {b : Nat} {l : Location} {xs ys : List String}
    (h : t.walk f b here (xs ++ ys) = .ok l) (hys : ys ≠ []) : ∃ k, t.walk true b here xs = .ok k ∧
      ((∃ m, t.get? k = some (.dir m)) ∨ t.get? k = none ∧ l = k) := by
  rw [walk_eq_ok_iff] at h
  generalize hnames : xs ++ ys = names at h
  induction h generalizing xs with
  | arrived htrail =>
    subst hnames
    rcases trail_left htrail hys with ⟨k, hk, hend⟩ | ⟨dir, target, rest, -, hr⟩
    · refine ⟨k, walk_of_trail hk, hend.imp_right fun hend => ⟨hend.1, Trail.arrived.inj hend.2⟩⟩
    · exact absurd hr (by simp)
  | followed htrail _ ih =>
    subst hnames
    rcases trail_left htrail hys with ⟨k, hk, hdir | ⟨-, hr⟩⟩ | ⟨dir, target, rest, hk, hr⟩
    · exact ⟨k, walk_of_trail hk, Or.inl hdir⟩
    · exact absurd hr (by simp)
    · obtain ⟨rfl, rfl, rfl⟩ := Trail.atLink.inj hr
      rw [walk_followed hk]
      exact ih (List.append_assoc ..)

theorem walk_left_dir {b : Nat} {l : Location} {xs ys : List String}
    (h : t.walk true b here (xs ++ ys) = .ok l) (hl : ∃ m, t.get? l = some (.dir m)) :
    ∃ k, t.walk true b here xs = .ok k ∧ ∃ m, t.get? k = some (.dir m) := by
  by_cases hys : ys = []
  · exact ⟨l, by rwa [hys, List.append_nil] at h, hl⟩
  obtain ⟨k, hk, hdir | ⟨hnone, rfl⟩⟩ := walk_left h hys
  · exact ⟨k, hk, hdir⟩
  · exact ⟨l, hk, hl⟩

/-- A slash at the end of the path of a directory does not matter. -/
theorem walk_concat_empty {b : Nat} {l : Location} {xs : List String}
    (h : t.walk true b here (xs ++ [""]) = .ok l) (hl : ∃ m, t.get? l = some (.dir m)) :
    t.walk true b here xs = .ok l := by
  obtain ⟨k, hk, m, hdir⟩ := walk_left_dir h hl
  obtain ⟨b', hb'⟩ := walk_append hdir hk true (List.cons_ne_nil "" [])
  rw [hb', walk_eq, trail_empty hdir rfl] at h
  rw [hk, ← Except.ok.inj h]

/-! ## Names -/

/-- The location and all above it down from `here` are directories. -/
def IsDirs (t : Tree) (here : Location) (names : List String) : Prop :=
  ∀ q r, names = q ++ r → ∃ m, t.get? (here ++ q) = some (.dir m)

theorem IsDirs.first {names : List String} (h : IsDirs t here names) :
    ∃ m, t.get? here = some (.dir m) := by
  have h0 := h [] names rfl
  rwa [List.append_nil] at h0

theorem IsDirs.self {names : List String} (h : IsDirs t here names) :
    ∃ m, t.get? (here ++ names) = some (.dir m) := h names [] (by simp)

theorem IsDirs.tail {name : String} {names : List String} (h : IsDirs t here (name :: names)) :
    IsDirs t (here ++ [name]) names := by
  intro q r hqr
  have hq := h (name :: q) r (by rw [hqr, List.cons_append])
  rwa [List.append_assoc, List.singleton_append]

theorem IsDirs.left {q r : List String} (h : IsDirs t here (q ++ r)) : IsDirs t here q := by
  intro a b hab
  exact h a (b ++ r) (by rw [hab, List.append_assoc])

theorem IsDirs.concat {names : List String} {name : String} (h : IsDirs t here names)
    (hdir : ∃ m, t.get? (here ++ (names ++ [name])) = some (.dir m)) :
    IsDirs t here (names ++ [name]) := by
  intro q r hqr
  by_cases hr : r = []
  · rw [hr, List.append_nil] at hqr
    rwa [← hqr]
  · rw [← List.dropLast_concat_getLast hr, ← List.append_assoc] at hqr
    exact h q r.dropLast (List.append_inj' hqr rfl).1

theorem trail_isDirs {names : List String} (h : IsDirs t here names)
    (hnames : ∀ p ∈ names, IsName p) (f : Bool) (rest : List String) :
    t.trail f here (names ++ rest) = t.trail f (here ++ names) rest := by
  induction names generalizing here with
  | nil => rw [List.nil_append, List.append_nil]
  | cons name names ih =>
    obtain ⟨m, hdir⟩ := h.first
    obtain ⟨m', hchild⟩ := h.tail.first
    rw [List.cons_append, trail_name hdir (hnames name (by simp)), hchild]
    show t.trail f (here ++ [name]) (names ++ rest) = _
    rw [ih h.tail fun p hp => hnames p (by simp [hp]), List.append_assoc, List.singleton_append]

/-- **Arrival.** Below directories a walk arrives at its last name, unless there is a link. With
slashes behind the name there must not be a file either. -/
theorem walk_along {names tail : List String} {name : String} (h : IsDirs t here names)
    (hnames : ∀ p ∈ names ++ [name], IsName p) (htail : ∀ p ∈ tail, p = "")
    (hnode : t.get? (here ++ names ++ [name]) = none ∨
      (∃ m, t.get? (here ++ names ++ [name]) = some (.dir m)) ∨
      tail = [] ∧ ∀ target, t.get? (here ++ names ++ [name]) ≠ some (.link target))
    (f : Bool) (budget : Nat) :
    t.walk f budget here (names ++ name :: tail) = .ok (here ++ names ++ [name]) := by
  have hall : tail.all (· == "") = true := by simpa using htail
  refine walk_of_trail ?_
  obtain ⟨m, hself⟩ := h.self
  rw [trail_isDirs h (fun p hp => hnames p (by simp [hp])),
    trail_name hself (hnames name (by simp))]
  cases hchild : t.get? (here ++ names ++ [name]) with
  | none => exact if_pos hall
  | some n =>
    rw [hchild] at hnode
    cases n with
    | dir m => exact trail_empty hchild hall f
    | file c m =>
      have hnil : tail = [] := by simpa using hnode
      rw [hnil]
      exact trail_nil t f _
    | link target => simp at hnode

/-- **Failure.** A walk does not get past a name that is missing. -/
theorem walk_missing {names : List String} {name : String} {rest : List String}
    (h : IsDirs t here names) (hnames : ∀ p ∈ names ++ [name], IsName p)
    (hnone : t.get? (here ++ names ++ [name]) = none) (hrest : rest.all (· == "") = false)
    (f : Bool) (budget : Nat) :
    t.walk f budget here (names ++ name :: rest) = .error .notFound := by
  obtain ⟨m, hself⟩ := h.self
  rw [walk_eq, trail_isDirs h (fun p hp => hnames p (by simp [hp])),
    trail_name hself (hnames name (by simp)), hnone]
  simp [hrest]

/-! ## Sizes of names -/

theorem size_le_of_trail {names : List String} {r : Trail} (h : t.trail f here names = .ok r)
    {p : String} (hp : p ∈ names) :
    p.utf8ByteSize ≤ maxNameSize ∨ ∃ dir target rest, r = .atLink dir target rest ∧ p ∈ rest := by
  rw [trail_eq_ok_iff] at h
  induction h with
  | done => exact absurd hp List.not_mem_nil
  | stay _ hname _ ih =>
    rcases List.mem_cons.1 hp with rfl | hp
    · rcases hname with rfl | rfl <;> exact Or.inl (by decide)
    · exact ih hp
  | up _ _ ih =>
    rcases List.mem_cons.1 hp with rfl | hp
    · exact Or.inl (by decide)
    · exact ih hp
  | enter _ hname _ _ _ ih =>
    rcases List.mem_cons.1 hp with rfl | hp
    · exact Or.inl hname.size_le
    · exact ih hp
  | missing _ hname _ hrest =>
    rcases List.mem_cons.1 hp with rfl | hp
    · exact Or.inl hname.size_le
    · have hempty : p = "" := by simpa using List.all_eq_true.1 hrest p hp
      exact Or.inl (by rw [hempty]; decide)
  | lastLink _ hname => exact Or.inl (List.mem_singleton.1 hp ▸ hname.size_le)
  | link _ hname =>
    rcases List.mem_cons.1 hp with rfl | hp
    · exact Or.inl hname.size_le
    · exact Or.inr ⟨_, _, _, rfl, hp⟩

/-- **Names fit.** A walk that arrives has passed no name that is too long. -/
theorem size_le_of_walk {budget : Nat} {names : List String} {l : Location}
    (h : t.walk f budget here names = .ok l) {p : String} (hp : p ∈ names) :
    p.utf8ByteSize ≤ maxNameSize := by
  rw [walk_eq_ok_iff] at h
  induction h with
  | arrived htrail =>
    rcases size_le_of_trail htrail hp with hle | ⟨dir, target, rest, hr, -⟩
    · exact hle
    · exact absurd hr (by simp)
  | followed htrail _ ih =>
    rcases size_le_of_trail htrail hp with hle | ⟨dir, target, rest, hr, hrest⟩
    · exact hle
    · obtain ⟨rfl, rfl, rfl⟩ := Trail.atLink.inj hr
      exact ih (List.mem_append_right _ hrest)

end Rebadge.Tree
