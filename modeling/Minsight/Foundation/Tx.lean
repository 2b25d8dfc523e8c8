import Mathlib.Order.Defs.Unbundled
import Mathlib.Data.List.Basic

/-! # Programs that read and write a state and may raise

A program keeps the writes it made before an exception, as a session does until
it is rolled back. Programs are related to the states they start from and end in
in two ways. An inversion lemma for each construct takes a successful run apart,
and `Respects` bounds what a program can do to the state whether or not it
succeeds.
-/

namespace Minsight

/-- A program over states `σ` that returns `α` or raises `ε`. -/
abbrev Tx (ε σ α : Type) := ExceptT ε (StateM σ) α

namespace Tx

variable {ε σ α β γ : Type} {m : Tx ε σ α} {f : α → Tx ε σ β} {s s' : σ} {a : α} {b : β} {e : ε}

/-- The outcome of a program and the state it leaves. -/
def exec (m : Tx ε σ α) (s : σ) : Except ε α × σ := m.run.run s

def read (f : σ → α) : Tx ε σ α := ExceptT.mk fun s => (.ok (f s), s)

def write (f : σ → σ) : Tx ε σ Unit := ExceptT.mk fun s => (.ok (), f s)

def raise (e : ε) : Tx ε σ α := ExceptT.mk fun s => (.error e, s)

/-- `try m except e`: the writes of a failed `m` stay. -/
def attempt (m : Tx ε σ α) : Tx ε σ (Except ε α) :=
  ExceptT.mk fun s => (.ok (exec m s).1, (exec m s).2)

/-- Raise `e` where something outside the program fails. -/
def fallible (failure : Option ε) : Tx ε σ Unit :=
  match failure with
  | some e => raise e
  | none => pure ()

/-- Run `m` in a session that is rolled back by `restore` when `m` raises. -/
def atomically (restore : σ → σ → σ) (m : Tx ε σ α) : Tx ε σ α :=
  ExceptT.mk fun s =>
    match exec m s with
    | (.ok a, s') => (.ok a, s')
    | (.error e, s') => (.error e, restore s s')

@[simp] theorem exec_pure : exec (pure a : Tx ε σ α) s = (.ok a, s) := rfl

@[simp] theorem exec_read (g : σ → α) : exec (read g : Tx ε σ α) s = (.ok (g s), s) := rfl

@[simp] theorem exec_write (g : σ → σ) : exec (write g : Tx ε σ Unit) s = (.ok (), g s) := rfl

@[simp] theorem exec_raise : exec (raise e : Tx ε σ α) s = (.error e, s) := rfl

@[simp] theorem exec_attempt : exec (attempt m) s = (.ok (exec m s).1, (exec m s).2) := rfl

/-- What `m` returns, when it returns. -/
def returned (m : Tx ε σ α) (s : σ) : Option α := (exec m s).1.toOption

theorem exec_of_returned (h : returned m s = some a) : exec m s = (.ok a, (exec m s).2) := by
  unfold returned at h
  rcases hm : exec m s with ⟨_ | b, s'⟩ <;> rw [hm] at h
  · cases h
  · obtain rfl : b = a := Option.some.inj h
    rfl

theorem exec_of_returned_map {f : α → β} (h : (returned m s).map f = some b) :
    ∃ a s', exec m s = (.ok a, s') ∧ f a = b := by
  obtain ⟨a, ha, hb⟩ := Option.map_eq_some_iff.mp h
  exact ⟨a, _, exec_of_returned ha, hb⟩

theorem exec_bind : exec (m >>= f) s =
    match exec m s with
    | (.ok a, s') => exec (f a) s'
    | (.error e, s') => (.error e, s') := by
  have h : exec (m >>= f) s =
      (ExceptT.bindCont f (exec m s).1).run (exec m s).2 := rfl
  rw [h]
  rcases exec m s with ⟨_ | _, _⟩ <;> rfl

theorem error_ne_ok {e : ε} {b : β} : (.error e : Except ε β) ≠ .ok b := by
  intro h
  cases h

theorem except_bind_ok {x : Except ε α} {k : α → Except ε β} :
    x >>= k = .ok b ↔ ∃ a, x = .ok a ∧ k a = .ok b := by
  cases x with
  | error e =>
    constructor
    · nofun
    · rintro ⟨_, ⟨⟩, _⟩
  | ok a =>
    constructor
    · exact fun h => ⟨a, rfl, h⟩
    · rintro ⟨_, ⟨⟩, h⟩
      exact h

section MapM

variable {g : γ → Except ε β} {l : List γ} {l' : List β}

theorem exists_of_mapM_ok {c : γ} (h : l.mapM g = .ok l') (hc : c ∈ l) :
    ∃ b ∈ l', g c = .ok b := by
  induction l generalizing l' with
  | nil => exact absurd hc List.not_mem_nil
  | cons d l ih =>
    rw [List.mapM_cons] at h
    obtain ⟨b, hb, h⟩ := except_bind_ok.mp h
    obtain ⟨rest, hrest, h⟩ := except_bind_ok.mp h
    obtain rfl := Except.ok.inj h
    rcases List.mem_cons.mp hc with rfl | hc
    · exact ⟨b, List.mem_cons_self, hb⟩
    · obtain ⟨b', hb', hg⟩ := ih hrest hc
      exact ⟨b', List.mem_cons_of_mem _ hb', hg⟩

theorem length_of_mapM_ok (h : l.mapM g = .ok l') : l'.length = l.length := by
  induction l generalizing l' with
  | nil =>
    rw [← Except.ok.inj h]
    rfl
  | cons c l ih =>
    rw [List.mapM_cons] at h
    obtain ⟨b, -, h⟩ := except_bind_ok.mp h
    obtain ⟨rest, hrest, h⟩ := except_bind_ok.mp h
    rw [← Except.ok.inj h, List.length_cons, List.length_cons, ih hrest]

theorem mem_mapM_ok (h : l.mapM g = .ok l') (hb : b ∈ l') : ∃ c ∈ l, g c = .ok b := by
  induction l generalizing l' with
  | nil =>
    rw [← Except.ok.inj h] at hb
    exact absurd hb List.not_mem_nil
  | cons c l ih =>
    rw [List.mapM_cons] at h
    obtain ⟨b', hb', h⟩ := except_bind_ok.mp h
    obtain ⟨rest, hrest, h⟩ := except_bind_ok.mp h
    obtain rfl := Except.ok.inj h
    rcases List.mem_cons.mp hb with rfl | hb
    · exact ⟨c, List.mem_cons_self, hb'⟩
    · obtain ⟨c', hc', hg⟩ := ih hrest hb
      exact ⟨c', List.mem_cons_of_mem c hc', hg⟩

theorem mapM_concat_ok {c : γ} : (l ++ [c]).mapM g = .ok l' ↔
    ∃ init b, l.mapM g = .ok init ∧ g c = .ok b ∧ l' = init ++ [b] := by
  rw [List.mapM_append]
  constructor
  · intro h
    obtain ⟨init, hinit, h⟩ := except_bind_ok.mp h
    obtain ⟨last, hlast, h⟩ := except_bind_ok.mp h
    rw [List.mapM_cons] at hlast
    obtain ⟨b, hb, hlast⟩ := except_bind_ok.mp hlast
    obtain rfl := Except.ok.inj hlast
    exact ⟨init, b, hinit, hb, (Except.ok.inj h).symm⟩
  · rintro ⟨init, b, hinit, hb, rfl⟩
    rw [hinit, List.mapM_cons, hb]
    rfl

theorem mapM_map_ok {f : α → γ} {k : α → β} {l : List α} (h : ∀ a ∈ l, g (f a) = .ok (k a)) :
    (l.map f).mapM g = .ok (l.map k) := by
  induction l with
  | nil => rfl
  | cons a l ih =>
    rw [List.map_cons, List.mapM_cons, h a List.mem_cons_self,
      ih fun b hb => h b (List.mem_cons_of_mem _ hb)]
    rfl

end MapM

theorem ok_of_isOk {x : Except ε α} (h : x.isOk = true) : ∃ a, x = .ok a := by
  cases x with
  | ok a => exact ⟨a, rfl⟩
  | error e => cases h

theorem exec_bind_of_ok (h : exec m s = (.ok a, s')) : exec (m >>= f) s = exec (f a) s' := by
  rw [exec_bind, h]

theorem exec_bind_of_error (h : exec m s = (.error e, s')) :
    exec (m >>= f) s = (.error e, s') := by
  rw [exec_bind, h]

theorem exec_bind_ok : exec (m >>= f) s = (.ok b, s') ↔
    ∃ a s₁, exec m s = (.ok a, s₁) ∧ exec (f a) s₁ = (.ok b, s') := by
  rw [exec_bind]
  rcases h : exec m s with ⟨_ | a, s₁⟩
  · simp
  · constructor
    · exact fun hf => ⟨a, s₁, rfl, hf⟩
    · rintro ⟨a', s₁', he, hf⟩
      obtain ⟨rfl, rfl⟩ : a = a' ∧ s₁ = s₁' := by simpa using he
      exact hf

@[simp] theorem exec_bind_pure (g : α → Tx ε σ β) : exec (pure a >>= g) s = exec (g a) s :=
  exec_bind_of_ok rfl

@[simp] theorem exec_bind_read (g : σ → α) : exec (read g >>= f) s = exec (f (g s)) s :=
  exec_bind_of_ok rfl

@[simp] theorem exec_bind_write (g : σ → σ) (k : Unit → Tx ε σ β) :
    exec (write g >>= k) s = exec (k ()) (g s) :=
  exec_bind_of_ok rfl

@[simp] theorem exec_bind_raise : exec (raise e >>= f) s = (.error e, s) :=
  exec_bind_of_error rfl

@[simp] theorem exec_bind_attempt (k : Except ε α → Tx ε σ β) :
    exec (attempt m >>= k) s = exec (k (exec m s).1) (exec m s).2 :=
  exec_bind_of_ok rfl

@[simp] theorem exec_map (g : α → β) :
    exec (g <$> m) s = ((exec m s).1.map g, (exec m s).2) := by
  rw [← bind_pure_comp, exec_bind]
  rcases exec m s with ⟨_ | _, _⟩ <;> rfl

theorem exec_fallible_ok {o : Option ε} :
    exec (fallible o : Tx ε σ Unit) s = (.ok (), s') ↔ o = none ∧ s = s' := by
  cases o <;> simp [fallible]

@[simp] theorem exec_fallible_bind_ok {o : Option ε} {k : Unit → Tx ε σ β} :
    exec (fallible o >>= k) s = (.ok b, s') ↔ o = none ∧ exec (k ()) s = (.ok b, s') := by
  cases o <;> simp [fallible]

@[simp] theorem exec_fallible_snd {o : Option ε} :
    (exec (fallible o : Tx ε σ Unit) s).2 = s := by
  cases o <;> rfl

theorem exec_atomically {restore : σ → σ → σ} :
    exec (atomically restore m) s =
      match exec m s with
      | (.ok a, s') => (.ok a, s')
      | (.error e, s') => (.error e, restore s s') := rfl

theorem exec_atomically_ok {restore : σ → σ → σ} :
    exec (atomically restore m) s = (.ok a, s') ↔ exec m s = (.ok a, s') := by
  rw [exec_atomically]
  rcases exec m s with ⟨_ | _, _⟩ <;> simp

/-- However `m` ends, it relates the state it starts from to the state it leaves. -/
def Respects (R : σ → σ → Prop) (m : Tx ε σ α) : Prop := ∀ s, R s (exec m s).2

section Respects

variable {R : σ → σ → Prop}

theorem respects_atomically {restore : σ → σ → σ}
    (ok : ∀ s a s', exec m s = (.ok a, s') → R s s')
    (error : ∀ s e s', exec m s = (.error e, s') → R s (restore s s')) :
    Respects R (atomically restore m) := by
  intro s
  rw [exec_atomically]
  rcases h : exec m s with ⟨e | a, s'⟩
  · exact error _ _ _ h
  · exact ok _ _ _ h

theorem Respects.of_exec {r : Except ε α} (hm : Respects R m) (h : exec m s = (r, s')) :
    R s s' := by
  have := hm s
  rwa [h] at this

theorem Respects.mono {R' : σ → σ → Prop} (hm : Respects R m) (h : ∀ s s', R s s' → R' s s') :
    Respects R' m := fun s => h _ _ (hm s)

theorem Respects.map (g : α → β) (hm : Respects R m) : Respects R (g <$> m) := by
  intro s
  rw [exec_map]
  exact hm s

theorem respects_write {g : σ → σ} (h : ∀ s, R s (g s)) :
    Respects R (write g : Tx ε σ Unit) := h

theorem Respects.attempt (hm : Respects R m) : Respects R (attempt m) := hm

theorem rel_bind [IsTrans σ R] (hm : R s (exec m s).2)
    (hf : ∀ a s', exec m s = (.ok a, s') → R s' (exec (f a) s').2) : R s (exec (m >>= f) s).2 := by
  rw [exec_bind]
  rcases hr : exec m s with ⟨_ | a, s₁⟩ <;> rw [hr] at hm
  · exact hm
  · exact IsTrans.trans _ _ _ hm (hf a s₁ hr)

theorem Respects.bind [IsTrans σ R] (hm : Respects R m) (hf : ∀ a, Respects R (f a)) :
    Respects R (m >>= f) :=
  fun s => rel_bind (hm s) fun a s' _ => hf a s'

variable [Std.Refl R]

theorem respects_pure (a : α) : Respects R (pure a : Tx ε σ α) := fun s => Std.Refl.refl s

theorem respects_read (g : σ → α) : Respects R (read g : Tx ε σ α) := fun s => Std.Refl.refl s

theorem respects_raise (e : ε) : Respects R (raise e : Tx ε σ α) := fun s => Std.Refl.refl s

theorem respects_fallible (o : Option ε) : Respects R (fallible o : Tx ε σ Unit) := by
  intro s
  rw [exec_fallible_snd]
  exact Std.Refl.refl s

variable [IsTrans σ R]

theorem Respects.forM {l : List γ} {k : γ → Tx ε σ PUnit} (hk : ∀ c ∈ l, Respects R (k c)) :
    Respects R (forM l k) := by
  induction l with
  | nil => exact respects_pure _
  | cons c l ih =>
    rw [List.forM_cons]
    exact (hk c List.mem_cons_self).bind fun _ =>
      ih fun d hd => hk d (List.mem_cons_of_mem _ hd)

theorem Respects.foldlM {l : List γ} {k : β → γ → Tx ε σ β}
    (hk : ∀ b, ∀ c ∈ l, Respects R (k b c)) (b : β) : Respects R (l.foldlM k b) := by
  induction l generalizing b with
  | nil => exact respects_pure _
  | cons c l ih =>
    rw [List.foldlM_cons]
    exact (hk b c List.mem_cons_self).bind fun b' =>
      ih (fun b d hd => hk b d (List.mem_cons_of_mem _ hd)) b'

end Respects

/-- Whatever `m` returns satisfies `P`. -/
def Returns (P : α → Prop) (m : Tx ε σ α) : Prop := ∀ s a s', exec m s = (.ok a, s') → P a

section Returns

variable {P : α → Prop} {Q : β → Prop}

theorem returns_pure (h : P a) : Returns P (pure a : Tx ε σ α) := by
  intro s b s' hb
  obtain ⟨rfl, -⟩ : a = b ∧ s = s' := by simpa using hb
  exact h

theorem returns_raise (e : ε) : Returns P (raise e : Tx ε σ α) := by
  intro s b s' hb
  simp at hb

theorem returns_any : Returns (fun _ => True) m := fun _ _ _ _ => trivial

theorem Returns.bind (hm : Returns P m) (hf : ∀ a, P a → Returns Q (f a)) :
    Returns Q (m >>= f) := by
  intro s b s' h
  obtain ⟨a, s₁, h₁, h₂⟩ := exec_bind_ok.mp h
  exact hf a (hm s a s₁ h₁) s₁ b s' h₂

theorem returns_bind (hf : ∀ a, Returns Q (f a)) : Returns Q (m >>= f) :=
  returns_any.bind fun a _ => hf a

end Returns

/-- Whatever state it starts from, `m` returns. -/
def Total (m : Tx ε σ α) : Prop := ∀ s, ∃ a s', exec m s = (.ok a, s')

section Total

theorem total_pure : Total (pure a : Tx ε σ α) := fun s => ⟨a, s, rfl⟩

theorem total_read (g : σ → α) : Total (read g : Tx ε σ α) := fun s => ⟨g s, s, rfl⟩

theorem total_write (g : σ → σ) : Total (write g : Tx ε σ Unit) := fun s => ⟨(), g s, rfl⟩

theorem Total.bind (hm : Total m) (hf : ∀ a, Total (f a)) : Total (m >>= f) := by
  intro s
  obtain ⟨a, s₁, h₁⟩ := hm s
  obtain ⟨b, s₂, h₂⟩ := hf a s₁
  exact ⟨b, s₂, (exec_bind_of_ok h₁).trans h₂⟩

end Total

end Tx

end Minsight
