/-!
# Trails

A computation that writes entries on its way and ends in a value or an error. What was written
before an error stays.
-/

namespace Stepwise

/-- The entries written, and how the computation ended. -/
structure Trail (β ε α : Type) where
  entries : List β
  ending : Except ε α

namespace Trail

variable {β ε α γ : Type}

def andThen (t : Trail β ε α) (f : α → Trail β ε γ) : Trail β ε γ :=
  match t.ending with
  | .error e => ⟨t.entries, .error e⟩
  | .ok a => ⟨t.entries ++ (f a).entries, (f a).ending⟩

instance : Monad (Trail β ε) where
  pure a := ⟨[], .ok a⟩
  bind := andThen

def write (entries : List β) : Trail β ε Unit := ⟨entries, .ok ()⟩

def fail (e : ε) : Trail β ε α := ⟨[], .error e⟩

def ofExcept (r : Except ε α) : Trail β ε α := ⟨[], r⟩

/-- The same computation with each entry written as several others. -/
def expand {δ : Type} (f : β → List δ) (t : Trail β ε α) : Trail δ ε α :=
  ⟨t.entries.flatMap f, t.ending⟩

@[simp] theorem entries_pure (a : α) : (pure a : Trail β ε α).entries = [] := rfl

@[simp] theorem ending_pure (a : α) : (pure a : Trail β ε α).ending = .ok a := rfl

@[simp] theorem ending_write (entries : List β) :
    (write entries : Trail β ε Unit).ending = .ok () := rfl

@[simp] theorem ending_fail (e : ε) : (fail e : Trail β ε α).ending = .error e := rfl

@[simp] theorem ending_ofExcept (r : Except ε α) : (ofExcept r : Trail β ε α).ending = r := rfl

@[simp] theorem ending_expand {δ : Type} (f : β → List δ) (t : Trail β ε α) :
    (t.expand f).ending = t.ending := rfl

theorem bind_of_ok {t : Trail β ε α} {a : α} (f : α → Trail β ε γ) (ok : t.ending = .ok a) :
    t >>= f = ⟨t.entries ++ (f a).entries, (f a).ending⟩ := by
  change t.andThen f = _
  rw [andThen, ok]

theorem bind_of_error {t : Trail β ε α} {e : ε} (f : α → Trail β ε γ)
    (error : t.ending = .error e) : t >>= f = ⟨t.entries, .error e⟩ := by
  change t.andThen f = _
  rw [andThen, error]

theorem ending_bind_of_ok {t : Trail β ε α} {a : α} (f : α → Trail β ε γ)
    (ok : t.ending = .ok a) : (t >>= f).ending = (f a).ending := by rw [bind_of_ok f ok]

theorem ending_bind_of_error {t : Trail β ε α} {e : ε} (f : α → Trail β ε γ)
    (error : t.ending = .error e) : (t >>= f).ending = .error e := by rw [bind_of_error f error]

@[simp] theorem ending_pure_bind (a : α) (f : α → Trail β ε γ) :
    ((pure a : Trail β ε α) >>= f).ending = (f a).ending := ending_bind_of_ok f rfl

@[simp] theorem ending_write_bind (entries : List β) (f : Unit → Trail β ε γ) :
    (write entries >>= f).ending = (f ()).ending := ending_bind_of_ok f rfl

@[simp] theorem ending_fail_bind (e : ε) (f : α → Trail β ε γ) :
    (fail e >>= f).ending = .error e := ending_bind_of_error f rfl

theorem ending_bind_eq_ok_iff {t : Trail β ε α} {f : α → Trail β ε γ} {c : γ} :
    (t >>= f).ending = .ok c ↔ ∃ a, t.ending = .ok a ∧ (f a).ending = .ok c := by
  cases ended : t.ending with
  | error e => simp [ending_bind_of_error f ended]
  | ok a => simp [ending_bind_of_ok f ended]

theorem ending_bind_eq_error_iff {t : Trail β ε α} {f : α → Trail β ε γ} {e : ε} :
    (t >>= f).ending = .error e ↔
      t.ending = .error e ∨ ∃ a, t.ending = .ok a ∧ (f a).ending = .error e := by
  cases ended : t.ending with
  | error => simp [ending_bind_of_error f ended]
  | ok a => simp [ending_bind_of_ok f ended]

/-- What is written has no part in how a computation ends. -/
theorem ending_bind_congr {δ : Type} {t : Trail β ε α} {u : Trail δ ε α} {f : α → Trail β ε γ}
    {g : α → Trail δ ε γ} (first : t.ending = u.ending)
    (rest : ∀ a, (f a).ending = (g a).ending) : (t >>= f).ending = (u >>= g).ending := by
  cases ended : u.ending with
  | error e => rw [ending_bind_of_error g ended, ending_bind_of_error f (first.trans ended)]
  | ok a => rw [ending_bind_of_ok g ended, ending_bind_of_ok f (first.trans ended), rest]

theorem forall_mem_entries_bind_iff {P : β → Prop} {t : Trail β ε α} {f : α → Trail β ε γ} :
    (∀ b ∈ (t >>= f).entries, P b) ↔
      (∀ b ∈ t.entries, P b) ∧ ∀ a, t.ending = .ok a → ∀ b ∈ (f a).entries, P b := by
  cases ended : t.ending with
  | error e => simp [bind_of_error f ended]
  | ok a => simp [bind_of_ok f ended, or_imp, forall_and]

end Trail

end Stepwise
