import Mathlib.Data.List.Forall2

/-!
# Steps that may fail

When steps that may fail succeed or fail one after another, one mapped over, or one for each item of
a list. A list that is cut in two, between two of its items (`inTurn_mapM_append`) or within one
(`inTurn_mapM_within`), fails as its first part does, and as the second does if the first succeeds
(`InTurn`).
-/

namespace MetricsQuery

variable {ε α β : Type}

theorem bind_eq_ok_iff {x : Except ε α} {f : α → Except ε β} {b : β} :
    x >>= f = .ok b ↔ ∃ a, x = .ok a ∧ f a = .ok b := by
  cases x with
  | error e =>
    constructor
    · intro h
      cases h
    · rintro ⟨a, ha, -⟩
      cases ha
  | ok a =>
    constructor
    · intro h
      exact ⟨a, rfl, h⟩
    · rintro ⟨a', ha, h⟩
      cases ha
      exact h

theorem bind_eq_error_iff {x : Except ε α} {f : α → Except ε β} {e : ε} :
    x >>= f = .error e ↔ x = .error e ∨ ∃ a, x = .ok a ∧ f a = .error e := by
  cases x with
  | error e' =>
    constructor
    · intro h
      cases h
      exact .inl rfl
    · rintro (h | ⟨a, ha, -⟩)
      · cases h
        rfl
      · cases ha
  | ok a =>
    constructor
    · intro h
      exact .inr ⟨a, rfl, h⟩
    · rintro (h | ⟨a', ha, h⟩)
      · cases h
      · cases ha
        exact h

/-- A last step that gives a value adds no failure. -/
theorem bind_pure_eq_error_iff {x : Except ε α} {g : α → β} {e : ε} :
    (x >>= fun a => pure (g a)) = .error e ↔ x = .error e := by
  rw [bind_eq_error_iff]
  refine ⟨fun h => ?_, .inl⟩
  rcases h with h | ⟨_, -, h⟩
  · exact h
  · cases h

theorem map_eq_ok_iff {x : Except ε α} {f : α → β} {b : β} :
    x.map f = .ok b ↔ ∃ a, x = .ok a ∧ f a = b := by
  cases x <;> simp [Except.map]

theorem map_eq_error_iff {x : Except ε α} {f : α → β} {e : ε} :
    x.map f = .error e ↔ x = .error e := by
  cases x <;> simp [Except.map]

theorem mapError_eq_ok_iff {ε' : Type} {x : Except ε α} {f : ε → ε'} {a : α} :
    x.mapError f = .ok a ↔ x = .ok a := by
  cases x <;> simp [Except.mapError]

theorem mapError_eq_error_iff {ε' : Type} {x : Except ε α} {f : ε → ε'} {e' : ε'} :
    x.mapError f = .error e' ↔ ∃ e, x = .error e ∧ f e = e' := by
  cases x <;> simp [Except.mapError]

theorem mapM_cons_eq_ok_iff {f : α → Except ε β} {x : α} {xs : List α} {bs : List β} :
    (x :: xs).mapM f = .ok bs ↔ ∃ b bs', f x = .ok b ∧ xs.mapM f = .ok bs' ∧ b :: bs' = bs := by
  rw [List.mapM_cons]
  simp only [bind_eq_ok_iff, pure, Except.pure, Except.ok.injEq, exists_and_left]

theorem mapM_cons_eq_error_iff {f : α → Except ε β} {x : α} {xs : List α} {e : ε} :
    (x :: xs).mapM f = .error e ↔ f x = .error e ∨ ∃ b, f x = .ok b ∧ xs.mapM f = .error e := by
  rw [List.mapM_cons, bind_eq_error_iff]
  simp only [bind_pure_eq_error_iff]

/-- A step for each item of a list succeeds if each of them does, and gives what they give. -/
theorem mapM_eq_ok_iff {f : α → Except ε β} {xs : List α} {ys : List β} :
    xs.mapM f = .ok ys ↔ List.Forall₂ (fun x y => f x = .ok y) xs ys := by
  induction xs generalizing ys with
  | nil =>
    rw [List.mapM_nil, List.forall₂_nil_left_iff]
    exact ⟨fun h => (Except.ok.inj h).symm, fun h => h ▸ rfl⟩
  | cons x xs ih =>
    rw [mapM_cons_eq_ok_iff, List.forall₂_cons_left_iff]
    constructor
    · rintro ⟨y, zs, hy, hz, rfl⟩
      exact ⟨y, zs, hy, ih.mp hz, rfl⟩
    · rintro ⟨y, zs, hy, hz, rfl⟩
      exact ⟨y, zs, hy, ih.mpr hz, rfl⟩

/-- A step for each item of a list fails as it does for the first item for which it fails. -/
theorem mapM_eq_error_iff {f : α → Except ε β} {xs : List α} {e : ε} :
    xs.mapM f = .error e ↔ ∃ before x after, xs = before ++ x :: after ∧
      (∀ y ∈ before, ∃ b, f y = .ok b) ∧ f x = .error e := by
  induction xs with
  | nil =>
    rw [List.mapM_nil]
    constructor
    · intro h
      cases h
    · rintro ⟨before, x, after, h, -⟩
      exact absurd h.symm (List.append_ne_nil_of_right_ne_nil _ (List.cons_ne_nil _ _))
  | cons x xs ih =>
    rw [mapM_cons_eq_error_iff]
    constructor
    · rintro (h | ⟨b, hb, h⟩)
      · exact ⟨[], x, xs, rfl, fun _ hy => absurd hy List.not_mem_nil, h⟩
      · obtain ⟨before, y, after, rfl, hbefore, hy⟩ := ih.mp h
        exact ⟨x :: before, y, after, rfl, List.forall_mem_cons.mpr ⟨⟨b, hb⟩, hbefore⟩, hy⟩
    · rintro ⟨before, y, after, h, hbefore, hy⟩
      cases before with
      | nil =>
        cases h
        exact .inl hy
      | cons z before =>
        cases h
        obtain ⟨⟨b, hb⟩, hrest⟩ := List.forall_mem_cons.mp hbefore
        exact .inr ⟨b, hb, ih.mpr ⟨before, y, after, rfl, hrest, hy⟩⟩

/-! ## One part after another -/

/-- What `z` comes to when it does what `x` does and then what `y` does: the first failure of the
two, or both values joined. -/
structure InTurn (x y z : Except ε α) (join : α → α → α → Prop) : Prop where
  joined : ∀ a b, x = .ok a → y = .ok b → ∃ c, z = .ok c ∧ join a b c
  first : ∀ e, x = .error e → z = .error e
  second : ∀ a e, x = .ok a → y = .error e → z = .error e

section

variable {x y z : Except ε α} {join : α → α → α → Prop}

/-- What fails whatever there is to do fails in turn. -/
theorem inTurn_error (e : ε) (join : α → α → α → Prop) :
    InTurn (.error e) (.error e) (.error e) join :=
  ⟨nofun, fun _ h => h, nofun⟩

theorem InTurn.map {join' : β → β → β → Prop} (h : InTurn x y z join) {f : α → β}
    (hf : ∀ a b c, join a b c → join' (f a) (f b) (f c)) :
    InTurn (x.map f) (y.map f) (z.map f) join' where
  joined a b ha hb := by
    obtain ⟨a, hx, rfl⟩ := map_eq_ok_iff.mp ha
    obtain ⟨b, hy, rfl⟩ := map_eq_ok_iff.mp hb
    obtain ⟨c, hz, hj⟩ := h.joined a b hx hy
    exact ⟨f c, map_eq_ok_iff.mpr ⟨c, hz, rfl⟩, hf a b c hj⟩
  first e he := map_eq_error_iff.mpr (h.first e (map_eq_error_iff.mp he))
  second a e ha he := by
    obtain ⟨a, hx, rfl⟩ := map_eq_ok_iff.mp ha
    exact map_eq_error_iff.mpr (h.second a e hx (map_eq_error_iff.mp he))

theorem InTurn.mapError {ε' : Type} (h : InTurn x y z join) (f : ε → ε') :
    InTurn (x.mapError f) (y.mapError f) (z.mapError f) join where
  joined a b ha hb := by
    obtain ⟨c, hz, hj⟩ := h.joined a b (mapError_eq_ok_iff.mp ha) (mapError_eq_ok_iff.mp hb)
    exact ⟨c, mapError_eq_ok_iff.mpr hz, hj⟩
  first e' he := by
    obtain ⟨e, hx, rfl⟩ := mapError_eq_error_iff.mp he
    exact mapError_eq_error_iff.mpr ⟨e, h.first e hx, rfl⟩
  second a e' ha he := by
    obtain ⟨e, hy, rfl⟩ := mapError_eq_error_iff.mp he
    exact mapError_eq_error_iff.mpr ⟨e, h.second a e (mapError_eq_ok_iff.mp ha) hy, rfl⟩

end

section

variable {f : α → Except ε β} {xs ys : List α} {bs : List β}

theorem mapM_append_eq_ok_iff : (xs ++ ys).mapM f = .ok bs ↔
    ∃ as as', xs.mapM f = .ok as ∧ ys.mapM f = .ok as' ∧ as ++ as' = bs := by
  rw [List.mapM_append]
  simp only [bind_eq_ok_iff, pure, Except.pure, Except.ok.injEq, exists_and_left]

theorem mapM_append_eq_error_iff {e : ε} :
    (xs ++ ys).mapM f = .error e ↔
      xs.mapM f = .error e ∨ ∃ as, xs.mapM f = .ok as ∧ ys.mapM f = .error e := by
  rw [List.mapM_append, bind_eq_error_iff]
  simp only [bind_pure_eq_error_iff]

/-- A list cut between two items. -/
theorem inTurn_mapM_append (f : α → Except ε β) (xs ys : List α) :
    InTurn (xs.mapM f) (ys.mapM f) ((xs ++ ys).mapM f) (fun as bs cs => cs = as ++ bs) where
  joined as bs hx hy := ⟨as ++ bs, mapM_append_eq_ok_iff.mpr ⟨as, bs, hx, hy, rfl⟩, rfl⟩
  first _ hx := mapM_append_eq_error_iff.mpr (.inl hx)
  second as _ hx hy := mapM_append_eq_error_iff.mpr (.inr ⟨as, hx, hy⟩)

/-- A list cut within an item, of which `x` comes before the cut and `y` after it. -/
theorem inTurn_mapM_within {x y z : α} {join : β → β → β → Prop} (before after : List α)
    (h : InTurn (f x) (f y) (f z) join) :
    InTurn ((before ++ [x]).mapM f) ((y :: after).mapM f) ((before ++ z :: after).mapM f)
      (fun as bs cs => ∃ l a b c r,
        as = l ++ [a] ∧ bs = b :: r ∧ cs = l ++ c :: r ∧ join a b c) where
  joined as bs hx hy := by
    obtain ⟨l, _, hl, hlast, rfl⟩ := mapM_append_eq_ok_iff.mp hx
    obtain ⟨a, _, ha, hnil, rfl⟩ := mapM_cons_eq_ok_iff.mp hlast
    obtain ⟨b, r, hb, hr, rfl⟩ := mapM_cons_eq_ok_iff.mp hy
    obtain ⟨c, hc, hj⟩ := h.joined a b ha hb
    cases hnil
    exact ⟨l ++ c :: r, mapM_append_eq_ok_iff.mpr ⟨l, c :: r, hl,
      mapM_cons_eq_ok_iff.mpr ⟨c, r, hc, hr, rfl⟩, rfl⟩, l, a, b, c, r, rfl, rfl, rfl, hj⟩
  first e hx := by
    rcases mapM_append_eq_error_iff.mp hx with hl | ⟨l, hl, hx⟩
    · exact mapM_append_eq_error_iff.mpr (.inl hl)
    · rcases mapM_cons_eq_error_iff.mp hx with hx | ⟨_, -, hnil⟩
      · exact mapM_append_eq_error_iff.mpr
          (.inr ⟨l, hl, mapM_cons_eq_error_iff.mpr (.inl (h.first e hx))⟩)
      · cases hnil
  second as e hx hy := by
    obtain ⟨l, _, hl, hlast, -⟩ := mapM_append_eq_ok_iff.mp hx
    obtain ⟨a, _, ha, -, -⟩ := mapM_cons_eq_ok_iff.mp hlast
    refine mapM_append_eq_error_iff.mpr (.inr ⟨l, hl, mapM_cons_eq_error_iff.mpr ?_⟩)
    rcases mapM_cons_eq_error_iff.mp hy with hy | ⟨b, hb, hr⟩
    · exact .inl (h.second a e ha hy)
    · obtain ⟨c, hc, -⟩ := h.joined a b ha hb
      exact .inr ⟨c, hc, hr⟩

end

end MetricsQuery
