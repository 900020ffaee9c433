import BucketStats.Transcript
import Mathlib.Tactic
/-!
# Laws of computations that may fail

A sequence of steps succeeds exactly if each step does, and a list of steps exactly if all do.
Transcripts are a lawful monad, so a long one can be cut into stages.
-/

namespace BucketStats

variable {ν ε α β : Type}

theorem ok_bind (a : α) (f : α → Except ε β) : (.ok a : Except ε α) >>= f = f a := rfl

theorem exists_of_isOk {x : Except ε α} (h : x.isOk = true) : ∃ a, x = .ok a := by
  cases x with
  | ok a => exact ⟨a, rfl⟩
  | error e => cases h

theorem bind_eq_ok_iff {x : Except ε α} {f : α → Except ε β} {b : β} :
    x >>= f = .ok b ↔ ∃ a, x = .ok a ∧ f a = .ok b := by
  constructor
  · intro h
    cases x with
    | error e => cases h
    | ok a => exact ⟨a, rfl, h⟩
  · rintro ⟨a, rfl, h⟩
    exact h

/-- Where one step is there whatever the one before it gave, both are there if each is. -/
theorem exists_bind_eq_ok_iff {x : Except ε α} {f : α → Except ε β} {p : Prop}
    (hf : ∀ a, (∃ b, f a = .ok b) ↔ p) : (∃ b, x >>= f = .ok b) ↔ (∃ a, x = .ok a) ∧ p := by
  simp only [bind_eq_ok_iff]
  constructor
  · rintro ⟨b, a, ha, hb⟩
    exact ⟨⟨a, ha⟩, (hf a).1 ⟨b, hb⟩⟩
  · rintro ⟨⟨a, ha⟩, hp⟩
    obtain ⟨b, hb⟩ := (hf a).2 hp
    exact ⟨b, a, ha, hb⟩

theorem exists_bind_ok_iff {x : Except ε α} {f : α → β} :
    (∃ b, (x >>= fun a ↦ .ok (f a) : Except ε β) = .ok b) ↔ ∃ a, x = .ok a := by
  rw [exists_bind_eq_ok_iff fun a ↦ iff_true_intro ⟨f a, rfl⟩, and_true]

theorem exists_bind_bind_ok_iff {γ : Type} {x : Except ε α} {y : Except ε β} {f : α → β → γ} :
    (∃ c, (x >>= fun a ↦ y >>= fun b ↦ .ok (f a b) : Except ε γ) = .ok c) ↔
      (∃ a, x = .ok a) ∧ ∃ b, y = .ok b :=
  exists_bind_eq_ok_iff fun _ ↦ exists_bind_ok_iff

theorem mapError_eq_ok_iff {ε' : Type} {x : Except ε α} {f : ε → ε'} {a : α} :
    x.mapError f = .ok a ↔ x = .ok a := by
  cases x with
  | error e => simp [Except.mapError]
  | ok a' => simp [Except.mapError]

theorem ite_error_eq_ok_iff {p : Prop} [Decidable p] {e : ε} {a b : α} :
    (if p then .error e else .ok a : Except ε α) = .ok b ↔ ¬ p ∧ b = a := by
  by_cases hp : p
  · simp [hp]
  · simp [hp, eq_comm]

theorem mapM_eq_ok_iff {f : α → Except ε β} {as : List α} {bs : List β} :
    as.mapM f = .ok bs ↔ List.Forall₂ (fun a b ↦ f a = .ok b) as bs := by
  induction as generalizing bs with
  | nil =>
    rw [List.mapM_nil, List.forall₂_nil_left_iff]
    constructor
    · intro h
      cases h
      rfl
    · rintro rfl
      rfl
  | cons a rest ih =>
    rw [List.mapM_cons, bind_eq_ok_iff, List.forall₂_cons_left_iff]
    constructor
    · rintro ⟨b, hb, hrest⟩
      obtain ⟨bs', hbs', hcons⟩ := bind_eq_ok_iff.1 hrest
      cases hcons
      exact ⟨b, bs', hb, ih.1 hbs', rfl⟩
    · rintro ⟨b, bs', hb, hrest, rfl⟩
      exact ⟨b, hb, bind_eq_ok_iff.2 ⟨bs', ih.2 hrest, rfl⟩⟩

theorem exists_getElem?_of_forall₂ {r : α → β → Prop} {as : List α} {bs : List β}
    (h : List.Forall₂ r as bs) {i : Nat} {a : α} (ha : as[i]? = some a) :
    ∃ b, bs[i]? = some b ∧ r a b := by
  obtain ⟨hi, rfl⟩ := List.getElem?_eq_some_iff.1 ha
  have hi' : i < bs.length := h.length_eq ▸ hi
  exact ⟨bs[i], List.getElem?_eq_getElem hi', h.get hi hi'⟩

theorem mapM_map_eq_ok {γ : Type} {f : β → Except ε γ} {g : α → β} {h : α → γ} {as : List α}
    (hf : ∀ a ∈ as, f (g a) = .ok (h a)) : (as.map g).mapM f = .ok (as.map h) := by
  rw [mapM_eq_ok_iff, List.forall₂_map_left_iff, List.forall₂_map_right_iff, List.forall₂_same]
  exact hf

/-- What is done to the result of each step is done to the list of results. -/
theorem mapM_map_result {γ : Type} (f : α → Except ε β) (g : β → γ) (as : List α) :
    as.mapM (fun a ↦ (f a).map g) = (as.mapM f).map (List.map g) := by
  induction as with
  | nil => rfl
  | cons a rest ih =>
    rw [List.mapM_cons, List.mapM_cons, ih]
    cases f a with
    | error e => rfl
    | ok b => cases rest.mapM f <;> rfl

theorem bind_eq_error_iff {x : Except ε α} {f : α → Except ε β} {e : ε} :
    x >>= f = .error e ↔ x = .error e ∨ ∃ a, x = .ok a ∧ f a = .error e := by
  cases x with
  | error e' => simp [bind, Except.bind]
  | ok a => simp [bind, Except.bind]

/-- A list of steps fails with the first of them that fails. -/
theorem mapM_eq_error_iff {f : α → Except ε β} {as : List α} {e : ε} :
    as.mapM f = .error e ↔
      ∃ before a after, as = before ++ a :: after ∧ f a = .error e ∧
        ∀ earlier ∈ before, ∃ b, f earlier = .ok b := by
  induction as with
  | nil =>
    constructor
    · intro h
      cases h
    · rintro ⟨before, a, after, hsplit, _⟩
      exact absurd hsplit.symm (List.append_ne_nil_of_right_ne_nil _ (List.cons_ne_nil _ _))
  | cons first rest ih =>
    rw [List.mapM_cons, bind_eq_error_iff]
    constructor
    · rintro (hfirst | ⟨b, hfirst, hrest⟩)
      · exact ⟨[], first, rest, rfl, hfirst, fun _ h ↦ absurd h List.not_mem_nil⟩
      · have hrest' : rest.mapM f = .error e := by
          obtain hrest' | ⟨bs, _, hcons⟩ := bind_eq_error_iff.1 hrest
          · exact hrest'
          · cases hcons
        obtain ⟨before, a, after, rfl, ha, hbefore⟩ := ih.1 hrest'
        exact ⟨first :: before, a, after, rfl, ha, List.forall_mem_cons.2 ⟨⟨b, hfirst⟩, hbefore⟩⟩
    · rintro ⟨before, a, after, hsplit, ha, hbefore⟩
      cases before with
      | nil =>
        cases hsplit
        exact .inl ha
      | cons earlier before =>
        cases hsplit
        obtain ⟨⟨b, hfirst⟩, hbefore⟩ := List.forall_mem_cons.1 hbefore
        refine .inr ⟨b, hfirst, bind_eq_error_iff.2 (.inl ?_)⟩
        exact ih.2 ⟨before, a, after, rfl, ha, hbefore⟩

/-- Where a step fails, so does the list, and the first step that does decides. -/
theorem exists_first_error {f : α → Except ε β} {as : List α}
    (hfails : ∃ a ∈ as, ∀ b, f a ≠ .ok b) :
    ∃ before a after e, as = before ++ a :: after ∧ f a = .error e ∧
      (∀ earlier ∈ before, ∃ b, f earlier = .ok b) ∧ as.mapM f = .error e := by
  cases hrun : as.mapM f with
  | error e =>
    obtain ⟨before, a, after, hsplit, ha, hbefore⟩ := mapM_eq_error_iff.1 hrun
    exact ⟨before, a, after, e, hsplit, ha, hbefore, rfl⟩
  | ok bs =>
    obtain ⟨a, hmem, hfails⟩ := hfails
    obtain ⟨i, hi, rfl⟩ := List.mem_iff_getElem.1 hmem
    have hall := mapM_eq_ok_iff.1 hrun
    exact absurd (hall.get hi (hall.length_eq ▸ hi)) (hfails _)

/-- Whether two computations fail alike or have related results. -/
def Agree (r : α → α → Prop) : Except ε α → Except ε α → Prop
  | .ok a, .ok a' => r a a'
  | .error e, .error e' => e = e'
  | _, _ => False

theorem agree_refl {r : α → α → Prop} (hr : ∀ a, r a a) (x : Except ε α) : Agree r x x := by
  cases x with
  | error e => exact rfl
  | ok a => exact hr a

/-- Computations that agree go on to agree if related results do. -/
theorem Agree.bind {r : α → α → Prop} {s : β → β → Prop} {x x' : Except ε α}
    {f f' : α → Except ε β} (hx : Agree r x x') (hf : ∀ a a', r a a' → Agree s (f a) (f' a')) :
    Agree s (x >>= f) (x' >>= f') := by
  match x, x', hx with
  | .ok a, .ok a', hx => exact hf a a' hx
  | .error e, .error _, hx => exact hx

/-- Computations whose results are told by a function differ by that function alone. -/
theorem Agree.eq_map {f : α → α} {x x' : Except ε α} (h : Agree (fun a a' ↦ f a = a') x x') :
    x' = x.map f := by
  match x, x', h with
  | .ok a, .ok _, h => exact congrArg Except.ok h.symm
  | .error e, .error _, h => exact congrArg Except.error h.symm

theorem Agree.exists_ok {r : α → α → Prop} {x x' : Except ε α} (h : Agree r x x') {a' : α}
    (hx' : x' = .ok a') : ∃ a, x = .ok a ∧ r a a' := by
  subst hx'
  match x, h with
  | .ok a, h => exact ⟨a, rfl, h⟩

namespace Transcript

instance : LawfulMonad (Transcript ν ε) :=
  LawfulMonad.mk' (Transcript ν ε)
    (by
      intro α t
      obtain ⟨notes, result⟩ := t
      cases result with
      | ok a => exact congrArg (Transcript.mk · _) (List.append_nil notes)
      | error e => rfl)
    (by
      intro α β a f
      exact bind_ok [] a f)
    (by
      intro α β γ t f g
      obtain ⟨notes, result⟩ := t
      cases result with
      | error e => rfl
      | ok a =>
        rw [bind_ok, bind_ok]
        obtain ⟨notes', result'⟩ := f a
        cases result' with
        | error e => rfl
        | ok b => simp)

theorem ofExcept_ok_bind (a : α) (f : α → Transcript ν ε β) :
    ofExcept (.ok a) >>= f = f a := by
  have hpure : (ofExcept (.ok a) : Transcript ν ε α) = pure a := rfl
  rw [hpure, pure_bind]

theorem result_bind_eq_ok_iff {t : Transcript ν ε α} {f : α → Transcript ν ε β} {b : β} :
    (t >>= f).result = .ok b ↔ ∃ a, t.result = .ok a ∧ (f a).result = .ok b := by
  obtain ⟨notes, result⟩ := t
  cases result with
  | error e => simp
  | ok a => simp

theorem notes_bind_of_ok {t : Transcript ν ε α} {a : α} (h : t.result = .ok a)
    (f : α → Transcript ν ε β) : (t >>= f).notes = t.notes ++ (f a).notes := by
  obtain ⟨notes, result⟩ := t
  subst h
  rw [bind_ok]

theorem result_bind_of_ok {t : Transcript ν ε α} {a : α} (h : t.result = .ok a)
    (f : α → Transcript ν ε β) : (t >>= f).result = (f a).result := by
  obtain ⟨notes, result⟩ := t
  subst h
  rw [bind_ok]

/-- Nothing comes after a stop. -/
theorem bind_of_error {t : Transcript ν ε α} {e : ε} (h : t.result = .error e)
    (f : α → Transcript ν ε β) : t >>= f = ⟨t.notes, .error e⟩ := by
  obtain ⟨notes, result⟩ := t
  subst h
  rw [bind_error]

/-- A list of steps reaches its end exactly if each of them does. -/
theorem result_mapM_eq_ok_iff {f : α → Transcript ν ε β} {as : List α} {bs : List β} :
    (as.mapM f).result = .ok bs ↔ List.Forall₂ (fun a b ↦ (f a).result = .ok b) as bs := by
  induction as generalizing bs with
  | nil =>
    rw [List.mapM_nil, List.forall₂_nil_left_iff, pure_def, Except.ok.injEq, eq_comm]
  | cons a rest ih =>
    rw [List.mapM_cons, result_bind_eq_ok_iff, List.forall₂_cons_left_iff]
    constructor
    · rintro ⟨b, hb, hrest⟩
      obtain ⟨bs', hbs', hcons⟩ := result_bind_eq_ok_iff.1 hrest
      cases hcons
      exact ⟨b, bs', hb, ih.1 hbs', rfl⟩
    · rintro ⟨b, bs', hb, hrest, rfl⟩
      exact ⟨b, hb, result_bind_eq_ok_iff.2 ⟨bs', ih.2 hrest, rfl⟩⟩

/-- Whether the notes of a computation are these if it reaches its end, and a beginning of them if
it stops. -/
structure Says (expected : List ν) (t : Transcript ν ε α) : Prop where
  notes_initial : t.notes <+: expected
  notes_eq : ∀ a, t.result = .ok a → t.notes = expected

section Says

variable {expected more : List ν}

theorem says_pure (a : α) : (pure a : Transcript ν ε α).Says [] :=
  ⟨List.prefix_rfl, fun _ _ ↦ rfl⟩

theorem says_note (n : ν) : (note n : Transcript ν ε Unit).Says [n] :=
  ⟨List.prefix_rfl, fun _ _ ↦ rfl⟩

theorem says_ofExcept (r : Except ε α) : (ofExcept r : Transcript ν ε α).Says [] :=
  ⟨List.prefix_rfl, fun _ _ ↦ rfl⟩

/-- One stage after the other says what both say. -/
theorem Says.bind {t : Transcript ν ε α} {f : α → Transcript ν ε β} (ht : t.Says expected)
    (hf : ∀ a, t.result = .ok a → (f a).Says more) : (t >>= f).Says (expected ++ more) := by
  obtain ⟨notes, result⟩ := t
  cases result with
  | error e =>
    rw [bind_error]
    exact ⟨ht.notes_initial.trans (List.prefix_append _ _), fun b hb ↦ by cases hb⟩
  | ok a =>
    obtain rfl : notes = expected := ht.notes_eq a rfl
    have hmore := hf a rfl
    rw [bind_ok]
    refine ⟨(List.prefix_append_right_inj notes).2 hmore.notes_initial, fun b hb ↦ ?_⟩
    exact congrArg (notes ++ ·) (hmore.notes_eq b hb)

theorem Says.mapM {f : α → Transcript ν ε β} {message : α → ν} {as : List α}
    (hf : ∀ a ∈ as, (f a).Says [message a]) : (as.mapM f).Says (as.map message) := by
  induction as with
  | nil => exact says_pure []
  | cons a rest ih =>
    obtain ⟨ha, hrest⟩ := List.forall_mem_cons.1 hf
    rw [List.mapM_cons]
    apply ha.bind
    intro b _
    rw [← List.append_nil (rest.map message)]
    apply (ih hrest).bind
    intro bs _
    exact says_pure (b :: bs)

end Says

/-- Whether all notes have one property and the reason for stopping, if there is one, has another. -/
structure Within (p : ν → Prop) (q : ε → Prop) (t : Transcript ν ε α) : Prop where
  notes : ∀ n ∈ t.notes, p n
  stop : ∀ e, t.result = .error e → q e

section Within

variable {p : ν → Prop} {q : ε → Prop}

theorem within_pure (a : α) : (pure a : Transcript ν ε α).Within p q :=
  ⟨fun _ hn ↦ absurd hn List.not_mem_nil, fun _ he ↦ by cases he⟩

theorem within_note {n : ν} (hn : p n) : (note n : Transcript ν ε Unit).Within p q :=
  ⟨fun _ hmem ↦ List.mem_singleton.1 hmem ▸ hn, fun _ he ↦ by cases he⟩

theorem within_stop {e : ε} (he : q e) : (stop e : Transcript ν ε α).Within p q :=
  ⟨fun _ hn ↦ absurd hn List.not_mem_nil, fun _ he' ↦ Except.error.inj he' ▸ he⟩

theorem within_ofExcept {r : Except ε α} (hr : ∀ e, r = .error e → q e) :
    (ofExcept r : Transcript ν ε α).Within p q :=
  ⟨fun _ hn ↦ absurd hn List.not_mem_nil, hr⟩

theorem Within.mono {p' : ν → Prop} {q' : ε → Prop} {t : Transcript ν ε α} (ht : t.Within p q)
    (hp : ∀ n, p n → p' n) (hq : ∀ e, q e → q' e) : t.Within p' q' :=
  ⟨fun n hn ↦ hp n (ht.notes n hn), fun e he ↦ hq e (ht.stop e he)⟩

/-- What holds of each stage holds of them all. -/
theorem Within.bind {t : Transcript ν ε α} {f : α → Transcript ν ε β} (ht : t.Within p q)
    (hf : ∀ a, t.result = .ok a → (f a).Within p q) : (t >>= f).Within p q := by
  obtain ⟨notes, result⟩ := t
  cases result with
  | error e =>
    rw [bind_error]
    exact ⟨ht.notes, fun e' he' ↦ ht.stop e' (Except.error.inj he' ▸ rfl)⟩
  | ok a =>
    rw [bind_ok]
    refine ⟨fun n hn ↦ ?_, (hf a rfl).stop⟩
    exact (List.mem_append.1 hn).elim (ht.notes n) ((hf a rfl).notes n)

theorem Within.mapM {f : α → Transcript ν ε β} {as : List α}
    (hf : ∀ a ∈ as, (f a).Within p q) : (as.mapM f).Within p q := by
  induction as with
  | nil => exact within_pure []
  | cons a rest ih =>
    rw [List.mapM_cons]
    apply (hf a List.mem_cons_self).bind
    intro b _
    apply (ih fun a' ha' ↦ hf a' (List.mem_cons_of_mem a ha')).bind
    intro bs _
    exact within_pure (b :: bs)

theorem within_translate {ν' ε' : Type} {f : ν' → ν} {g : ε' → ε} (t : Transcript ν' ε' α)
    (hf : ∀ n, p (f n)) (hg : ∀ e, q (g e)) : (t.translate f g).Within p q := by
  constructor
  · intro n hn
    obtain ⟨n', _, rfl⟩ := List.mem_map.1 hn
    exact hf n'
  · intro e he
    obtain ⟨notes, result⟩ := t
    cases result with
    | error e' =>
      cases he
      exact hg e'
    | ok a => cases he

end Within

end Transcript

end BucketStats
