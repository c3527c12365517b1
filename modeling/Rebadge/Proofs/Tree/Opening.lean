import Rebadge.Proofs.Tree.Ways

/-!
# Where a file that was opened is replaced

Of a path that leads to a file, only what it names itself is replaced, which may be a link to the
file. The path leads to the new file (`walk_replaced`): were the link passed on the way too, a
directory would be behind it (`walk_left`) and not the file.
-/

namespace Rebadge.Tree

variable {t t' : Tree} {f f' : Bool} {here k l la : Location} {b b' : Nat}
  {names xs ys rest : List String} {r : Trail} {target : String}

/-! ## Links that may be followed -/

theorem walk_mono (h : t.walk f b here names = .ok l) (hle : b ≤ b') :
    t.walk f b' here names = .ok l := by
  rw [walk_eq_ok_iff] at h ⊢
  induction h generalizing b' with
  | arrived htrail => exact .arrived htrail
  | followed htrail _ ih =>
    obtain ⟨b', rfl⟩ : ∃ n, b' = n + 1 := ⟨b' - 1, by omega⟩
    exact .followed htrail (ih (by omega))

theorem walk_unique (h : t.walk f b here names = .ok l) (h' : t.walk f b' here names = .ok k) :
    l = k := by
  have hmax := (walk_mono h (Nat.le_max_left b b')).symm.trans
    (walk_mono h' (Nat.le_max_right b b'))
  exact Except.ok.inj hmax

/-! ## Links at the end of a path -/

/-- A walk is interrupted in a directory, and with names left unless it follows a link at its end,
too. -/
theorem atLink_of_trail {dir : Location}
    (h : t.trail f here names = .ok (.atLink dir target rest)) :
    (∃ m, t.get? dir = some (.dir m)) ∧ (rest = [] → f = true) := by
  rw [trail_eq_ok_iff] at h
  generalize hr : Trail.atLink dir target rest = r at h
  induction h with
  | done => exact absurd hr (by simp)
  | stay _ _ _ ih => exact ih hr
  | up _ _ ih => exact ih hr
  | enter _ _ _ _ _ ih => exact ih hr
  | missing => exact absurd hr (by simp)
  | lastLink => exact absurd hr (by simp)
  | link hdir _ _ hf =>
    obtain ⟨rfl, rfl, rfl⟩ := Trail.atLink.inj hr
    exact ⟨⟨_, hdir⟩, hf⟩

theorem dir_of_atLink {dir : Location} (h : t.trail f here names = .ok (.atLink dir target rest)) :
    ∃ m, t.get? (linkStart dir target) = some (.dir m) := by
  unfold linkStart
  split
  · exact ⟨0o755, rfl⟩
  · exact (atLink_of_trail h).1

theorem rest_ne_nil {dir : Location}
    (h : t.trail false here names = .ok (.atLink dir target rest)) : rest ≠ [] :=
  fun hnil => absurd ((atLink_of_trail h).2 hnil) (by simp)

/-- A walk that follows all links meets the same ones before its end, where it goes on if there is
one more. -/
theorem trail_follow (hwf : t.WellFormed) (hdir : ∃ m, t.get? here = some (.dir m))
    (h : t.trail false here names = .ok r) :
    (t.trail true here names = .ok r ∧ ∀ l target, r = .arrived l →
      t.get? l ≠ some (.link target)) ∨
      ∃ l target, r = .arrived l ∧ t.get? l = some (.link target) ∧
        ∀ r', t.trail true here names = .ok r' → r' = .atLink l.dropLast target [] := by
  rw [trail_eq_ok_iff] at h
  induction h with
  | done here =>
    obtain ⟨m, hm⟩ := hdir
    refine Or.inl ⟨trail_nil t true here, ?_⟩
    rintro l target ⟨⟩
    simp [hm]
  | stay hself hname _ ih =>
    rw [trail_stay hself hname]
    exact ih hdir
  | up hself _ ih =>
    rw [trail_up hself]
    exact ih (hwf.dropLast hdir)
  | @enter here m name rest r n hself hname hget hlink next ih =>
    rw [trail_enter hself hname hget hlink]
    by_cases hn : ∃ m, n = .dir m
    · obtain ⟨m, rfl⟩ := hn
      exact ih ⟨m, hget⟩
    · obtain ⟨rfl, rfl⟩ := next.of_not_dir fun m hm => hn ⟨m, Option.some.inj (hget.symm.trans hm)⟩
      refine Or.inl ⟨trail_nil t true _, ?_⟩
      rintro l target ⟨⟩
      rw [hget]
      exact fun heq => hlink target (Option.some.inj heq)
  | missing hself hname hget hrest =>
    refine Or.inl ⟨(Visits.missing hself hname hget hrest).trail, ?_⟩
    rintro l target ⟨⟩
    simp [hget]
  | @lastLink here m name target hself hname hget =>
    refine Or.inr ⟨_, target, rfl, hget, fun r' hr' => ?_⟩
    rw [trail_name hself hname, hget] at hr'
    simp only [Bool.not_true, Bool.false_eq_true, and_false, if_false] at hr'
    split at hr'
    · exact absurd hr' (by simp)
    · rw [List.dropLast_concat]
      exact (Except.ok.inj hr').symm
  | link hself hname hget _ htarget =>
    refine Or.inl ⟨(Visits.link hself hname hget (fun _ => rfl) htarget).trail, ?_⟩
    rintro l target ⟨⟩

theorem trail_nofollow (h : t.trail true here names = .ok r) : t.trail false here names = .ok r ∨
    ∃ l target, t.trail false here names = .ok (.arrived l) ∧ t.get? l = some (.link target) := by
  rw [trail_eq_ok_iff] at h
  induction h with
  | done here => exact Or.inl (trail_nil t false here)
  | stay hdir hname _ ih => rwa [trail_stay hdir hname]
  | up hdir _ ih => rwa [trail_up hdir]
  | enter hdir hname hget hlink _ ih => rwa [trail_enter hdir hname hget hlink]
  | missing hdir hname hget hrest => exact Or.inl (Visits.missing hdir hname hget hrest).trail
  | lastLink _ _ _ hf => exact absurd hf (by simp)
  | @link here m name target rest hdir hname hget _ htarget =>
    by_cases hrest : rest = []
    · subst hrest
      exact Or.inr ⟨_, target, (Visits.lastLink hdir hname hget rfl).trail, hget⟩
    · exact Or.inl (Visits.link hdir hname hget (fun hnil => absurd hnil hrest) htarget).trail

/-- What a path leads to, or a link, is named by the path itself. -/
theorem walk_nofollow (h : t.walk true b here names = .ok k) :
    ∃ la, t.walk false b here names = .ok la ∧
    (la = k ∨ ∃ target, t.get? la = some (.link target)) := by
  rw [walk_eq_ok_iff] at h
  induction h with
  | arrived htrail =>
    rcases trail_nofollow htrail with hsame | ⟨l, target, hl, hlink⟩
    · exact ⟨k, walk_of_trail hsame, Or.inl rfl⟩
    · exact ⟨l, walk_of_trail hl, Or.inr ⟨target, hlink⟩⟩
  | followed htrail _ ih =>
    rcases trail_nofollow htrail with hsame | ⟨l, target, hl, hlink⟩
    · rwa [walk_followed hsame]
    · exact ⟨l, walk_of_trail hl, Or.inr ⟨target, hlink⟩⟩

theorem behind_arrived (hwf : t.WellFormed) (hdir : ∃ m, t.get? here = some (.dir m))
    (h : t.trail false here names = .ok (.arrived la)) (hlink : t.get? la = some (.link target))
    (hk : t.walk true b here names = .ok k) :
    ∃ b', t.walk true b' (linkStart la.dropLast target) (Text.split target '/') = .ok k := by
  rcases trail_follow hwf hdir h with ⟨-, hnot⟩ | ⟨l, target', hl, hlink', hnext⟩
  · exact absurd hlink (hnot la target rfl)
  obtain rfl := Trail.arrived.inj hl
  obtain rfl : target = target' := by simpa [hlink] using hlink'
  cases walk_eq_ok_iff.1 hk with
  | arrived htrail => exact absurd (hnext _ htrail) (by simp)
  | @followed b _ _ _ _ _ htrail next =>
    obtain ⟨rfl, rfl, rfl⟩ := Trail.atLink.inj (hnext _ htrail)
    rw [List.append_nil] at next
    exact ⟨b, walk_eq_ok_iff.2 next⟩

theorem walk_behind_link (hwf : t.WellFormed) (hdir : ∃ m, t.get? here = some (.dir m))
    (h : t.walk false b here names = .ok la) (hlink : t.get? la = some (.link target))
    (hk : t.walk true b' here names = .ok k) :
    ∃ b'', t.walk true b'' (linkStart la.dropLast target) (Text.split target '/') = .ok k := by
  rw [walk_eq_ok_iff] at h
  induction h generalizing b' with
  | arrived htrail => exact behind_arrived hwf hdir htrail hlink hk
  | followed htrail _ ih =>
    rcases trail_follow hwf hdir htrail with ⟨hsame, -⟩ | ⟨l, target', hl, -⟩
    · cases b' with
      | zero =>
        rw [walk_eq, hsame] at hk
        exact absurd hk (by simp)
      | succ b' =>
        rw [walk_followed hsame] at hk
        exact ih (dir_of_atLink htrail) hk
    · exact absurd hl (by simp)

/-! ## Replacement -/

theorem dir_of_walk (h : t.walk f b here names = .ok l) (hne : names ≠ []) :
    ∃ m, t.get? here = some (.dir m) := by
  cases walk_eq_ok_iff.1 h with
  | arrived htrail => exact dir_of_trail htrail hne
  | followed htrail => exact dir_of_trail htrail hne

/-- If there is a link at the location, it leads to files only. -/
def LeadsToFile (t : Tree) (la : Location) : Prop :=
  ∀ target b k, t.get? la = some (.link target) →
    t.walk true b (linkStart la.dropLast target) (Text.split target '/') = .ok k →
    ∃ c m, t.get? k = some (.file c m)

/-- What a path to a file names itself is the file or a link to it. -/
theorem leadsToFile_of_walk (hwf : t.WellFormed) (hne : names ≠ [])
    (h : t.walk false b here names = .ok la) (hk : t.walk true b' here names = .ok k) {c : Content}
    {m : Nat} (hfile : t.get? k = some (.file c m)) :
    LeadsToFile t la := by
  intro target b₁ l hlink hwalk
  obtain ⟨b₂, hbehind⟩ := walk_behind_link hwf (dir_of_walk h hne) h hlink hk
  rw [walk_unique hwalk hbehind]
  exact ⟨c, m, hfile⟩

theorem LeadsToFile.walk_ne (h : LeadsToFile t la) (hlink : t.get? la = some (.link target))
    (hrest : rest ≠ []) :
    t.walk f b (linkStart la.dropLast target) (Text.split target '/' ++ rest) ≠ .ok l := by
  intro hwalk
  obtain ⟨k, hk, hleft⟩ := walk_left hwalk hrest
  obtain ⟨c, m, hfile⟩ := h target b k hlink hk
  rcases hleft with ⟨m', hdir⟩ | ⟨hnone, -⟩
  · exact absurd (hfile.symm.trans hdir) (by simp)
  · exact absurd (hfile.symm.trans hnone) (by simp)

/-- **The path of a file that is replaced** leads to the new one. -/
theorem walk_replaced (h : Rewrites la t t') (hsome : t.get? la ≠ none) (hlead : LeadsToFile t la)
    (hw : t.walk false b here names = .ok la) (f : Bool) : t'.walk f b here names = .ok la := by
  have hstep : ∀ {names here r}, t.trail false here names = .ok r → (∀ k, r = .arrived k → k = la) →
      (∀ target rest, t.get? la = some (.link target) → r ≠ .atLink la.dropLast target rest) →
      t'.trail f here names = .ok r := by
    intro names here r ht hr hnot
    rcases trail_rewritten h ht hr f with hsame | ⟨-, -, hnone | ⟨target, rest, hlink, heq⟩⟩
    · exact hsame
    · exact absurd hnone hsome
    · exact absurd heq (hnot target rest hlink)
  rw [walk_eq_ok_iff] at hw
  induction hw with
  | arrived htrail => exact walk_of_trail (hstep htrail (by rintro k ⟨⟩; rfl) (by simp))
  | followed htrail next ih =>
    rw [walk_followed (hstep htrail (by simp) fun target rest hlink heq => ?_), ih]
    obtain ⟨rfl, rfl, rfl⟩ := Trail.atLink.inj heq
    exact hlead.walk_ne hlink (rest_ne_nil htrail) (walk_eq_ok_iff.2 next)

/-- A file is put where a file or link was, and nothing else changes. -/
structure Refiled (la : Location) (t t' : Tree) : Prop where
  others : ∀ k, k ≠ la → t'.get? k = t.get? k
  present : t.get? la ≠ none
  not_dir : ∀ m, t.get? la ≠ some (.dir m)
  file : ∃ c m, t'.get? la = some (.file c m)

theorem Refiled.rewrites (h : Refiled la t t') : Rewrites la t t' :=
  ⟨fun k n hk hn => ⟨n, (h.others k hk).trans hn, .refl n⟩, Or.inl ⟨h.not_dir, h.file⟩⟩

theorem Refiled.dir (h : Refiled la t t') {m : Nat} (hk : t.get? k = some (.dir m)) :
    t'.get? k = some (.dir m) := by
  rw [h.others k (by rintro rfl; exact h.not_dir m hk), hk]

theorem trail_refiled (h : Refiled la t t') (ht : t.trail f here names = .ok r) :
    t'.trail f here names = .ok r ∨
      ∃ target rest, t.get? la = some (.link target) ∧ r = .atLink la.dropLast target rest := by
  rw [trail_eq_ok_iff] at ht
  induction ht with
  | done here => exact Or.inl (trail_nil t' f here)
  | stay hdir hname _ ih => rwa [trail_stay (h.dir hdir) hname]
  | up hdir _ ih => rwa [trail_up (h.dir hdir)]
  | @enter here m name rest r n hdir hname hget hlink next ih =>
    by_cases hk : here ++ [name] = la
    · obtain ⟨c, mode, hfile⟩ := h.file
      rw [hk] at next
      obtain ⟨rfl, rfl⟩ := next.of_not_dir h.not_dir
      rw [trail_enter (h.dir hdir) hname (hk ▸ hfile) (by simp), hk]
      exact Or.inl (trail_nil t' f la)
    · rwa [trail_enter (h.dir hdir) hname ((h.others _ hk).trans hget) hlink]
  | @missing here m name rest hdir hname hget hrest =>
    have hk : here ++ [name] ≠ la := by
      rintro rfl
      exact h.present hget
    exact Or.inl (Visits.missing (h.dir hdir) hname ((h.others _ hk).trans hget) hrest).trail
  | @lastLink here m name target hdir hname hget hf =>
    by_cases hk : here ++ [name] = la
    · obtain ⟨c, mode, hfile⟩ := h.file
      rw [trail_enter (h.dir hdir) hname (hk ▸ hfile) (by simp)]
      exact Or.inl (trail_nil t' f _)
    · exact Or.inl (Visits.lastLink (h.dir hdir) hname ((h.others _ hk).trans hget) hf).trail
  | @link here m name target rest hdir hname hget hf htarget =>
    by_cases hk : here ++ [name] = la
    · rw [← hk, List.dropLast_concat]
      exact Or.inr ⟨target, rest, hget, rfl⟩
    · exact Or.inl (Visits.link (h.dir hdir) hname ((h.others _ hk).trans hget) hf htarget).trail

/-- **Other paths** lead where they led, unless they lead to the file. -/
theorem walk_refiled (h : Refiled la t t') (hlead : LeadsToFile t la)
    (hw : t.walk f b here names = .ok l) (hl : ∀ c m, t.get? l ≠ some (.file c m)) :
    t'.walk f b here names = .ok l := by
  rw [walk_eq_ok_iff] at hw
  induction hw with
  | arrived htrail =>
    rcases trail_refiled h htrail with hsame | ⟨target, rest, -, hr⟩
    · exact walk_of_trail hsame
    · exact absurd hr (by simp)
  | @followed b here names dir target rest htrail next ih =>
    have hwalk := walk_eq_ok_iff.2 next
    rcases trail_refiled h htrail with hsame | ⟨target', rest', hlink, hr⟩
    · rw [walk_followed hsame, ih]
    obtain ⟨rfl, rfl, rfl⟩ := Trail.atLink.inj hr
    by_cases hrest : rest = []
    · -- A path that names the link at its end leads to the file behind it.
      cases f with
      | false => exact absurd hrest (rest_ne_nil htrail)
      | true =>
        rw [hrest, List.append_nil] at hwalk
        obtain ⟨c, m, hfile⟩ := hlead target b l hlink hwalk
        exact absurd hfile (hl c m)
    · exact absurd hwalk (hlead.walk_ne hlink hrest)

end Rebadge.Tree
