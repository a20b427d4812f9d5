import Coordination.InPlace
import Coordination.Proofs.Except

/-!
What computations in place come to. Most of them are to spare the state where they fail, and then their
form as a value tells everything about them.
-/

namespace Coordination

namespace InPlace

variable {ε δ σ α β : Type}

@[simp] theorem on_pure (a : α) (s : σ) : (pure a : InPlace ε σ α).on s = (.ok a, s) := rfl

@[simp] theorem on_throw (e : ε) (s : σ) : (throw e : InPlace ε σ α).on s = (.error e, s) := rfl

@[simp] theorem on_get (s : σ) : (get : InPlace ε σ σ).on s = (.ok s, s) := rfl

@[simp] theorem on_set (s next : σ) : (set next : InPlace ε σ PUnit).on s = (.ok ⟨⟩, next) := rfl

@[simp] theorem on_modify (f : σ → σ) (s : σ) :
    (modify f : InPlace ε σ PUnit).on s = (.ok ⟨⟩, f s) := rfl

@[simp] theorem on_ofResult (result : Except ε α) (s : σ) :
    (ofResult result : InPlace ε σ α).on s = (result, s) := rfl

@[simp] theorem on_mapFailure (f : ε → δ) (x : InPlace ε σ α) (s : σ) :
    (x.mapFailure f).on s = ((x.on s).1.mapError f, (x.on s).2) := rfl

theorem on_bind (x : InPlace ε σ α) (f : α → InPlace ε σ β) (s : σ) :
    (x >>= f).on s =
      match x.on s with
      | (.ok a, after) => (f a).on after
      | (.error e, after) => (.error e, after) := by
  unfold on ExceptT.run StateT.run Id.run
  simp only [bind, ExceptT.bind, ExceptT.mk, StateT.bind, ExceptT.bindCont]
  cases x s with
  | mk result after => cases result <;> rfl

theorem on_bind_of_ok {x : InPlace ε σ α} {s after : σ} {a : α} (ran : x.on s = (.ok a, after))
    (f : α → InPlace ε σ β) : (x >>= f).on s = (f a).on after := by
  rw [on_bind, ran]

theorem on_bind_of_error {x : InPlace ε σ α} {s after : σ} {e : ε}
    (ran : x.on s = (.error e, after)) (f : α → InPlace ε σ β) :
    (x >>= f).on s = (.error e, after) := by
  rw [on_bind, ran]

theorem on_ofResult_bind {result : Except ε α} {a : α} (read : result = .ok a)
    (f : α → InPlace ε σ β) (s : σ) : (ofResult result >>= f).on s = (f a).on s :=
  on_bind_of_ok (congrArg (·, s) read) f

theorem on_get_bind (f : σ → InPlace ε σ β) (s : σ) : (get >>= f).on s = (f s).on s :=
  on_bind_of_ok (on_get s) f

theorem value_bind_pure (x : InPlace ε σ α) (f : α → β) (s : σ) :
    (x >>= fun a => pure (f a)).value s = (fun (a, after) => (f a, after)) <$> x.value s := by
  unfold value
  rw [on_bind]
  rcases x.on s with ⟨_ | _, _⟩ <;> rfl

/-! Failures that spare the state. -/

/-- On `s`, a failure leaves everything as it was, and an answer comes with what `post` holds of. -/
def Spares (x : InPlace ε σ α) (s : σ) (post : α → σ → Prop) : Prop :=
  match x.on s with
  | (.ok a, after) => post a after
  | (.error _, after) => after = s

section Spares

variable {x : InPlace ε σ α} {f : α → InPlace ε σ β} {s : σ} {post : β → σ → Prop}

theorem spares_iff {post : α → σ → Prop} :
    x.Spares s post ↔ (∀ a after, x.on s = (.ok a, after) → post a after) ∧
      ∀ e after, x.on s = (.error e, after) → after = s := by
  unfold Spares
  rcases x.on s with ⟨_ | _, _⟩ <;> simp

theorem Spares.pure {post : α → σ → Prop} {a : α} (holds : post a s) :
    (Pure.pure a : InPlace ε σ α).Spares s post := holds

theorem Spares.throw {post : α → σ → Prop} (e : ε) :
    (MonadExcept.throw e : InPlace ε σ α).Spares s post := rfl

theorem Spares.ofResult {post : α → σ → Prop} {result : Except ε α}
    (holds : ∀ a, result = .ok a → post a s) : (InPlace.ofResult result).Spares s post := by
  cases result with
  | error e => rfl
  | ok a => exact holds a rfl

/-- As long as nothing has been changed, whatever fails next spares the state. -/
theorem Spares.bind {read : α → Prop} (first : x.Spares s fun a after => read a ∧ after = s)
    (later : ∀ a, read a → (f a).Spares s post) : (x >>= f).Spares s post := by
  unfold Spares at first ⊢
  rw [on_bind]
  rcases ran : x.on s with ⟨e | a, after⟩
  · rw [ran] at first
    exact first
  · rw [ran] at first
    obtain ⟨holds, rfl⟩ := first
    exact later a holds

theorem Spares.ofResult_bind {result : Except ε α}
    (later : ∀ a, result = .ok a → (f a).Spares s post) : (InPlace.ofResult result >>= f).Spares s post :=
  .bind (.ofResult fun _ read => ⟨read, rfl⟩) later

theorem Spares.get_bind {f : σ → InPlace ε σ β} (later : (f s).Spares s post) :
    (get >>= f).Spares s post := by
  unfold Spares at later ⊢
  rwa [on_get_bind]

/-- Once something may have been changed, nothing that may fail follows. -/
theorem Spares.bind_pure {f : α → β} (spares : x.Spares s fun a after => post (f a) after) :
    (x >>= fun a => Pure.pure (f a)).Spares s post := by
  unfold Spares at spares ⊢
  rw [on_bind]
  rcases ran : x.on s with ⟨e | a, after⟩ <;> rw [ran] at spares <;> exact spares

theorem Spares.mapFailure {post : α → σ → Prop} (spares : x.Spares s post) {f : ε → δ} :
    (x.mapFailure f).Spares s post := by
  unfold Spares at spares ⊢
  rw [on_mapFailure]
  rcases ran : x.on s with ⟨e | a, after⟩ <;> rw [ran] at spares <;> exact spares

theorem Spares.mono {post post' : α → σ → Prop} (spares : x.Spares s post)
    (weaker : ∀ a after, post a after → post' a after) : x.Spares s post' := by
  rw [spares_iff] at spares ⊢
  exact ⟨fun a after ran => weaker a after (spares.1 a after ran), spares.2⟩

theorem final_eq_ok_iff {x : InPlace ε σ α} {s after : σ} :
    x.final s = .ok after ↔ ∃ a, x.on s = (.ok a, after) := by
  unfold final value
  rcases x.on s with ⟨_ | _, _⟩ <;> simp

/-- A computation that spares the state where it fails leaves what it comes to as a value. -/
theorem Spares.left_eq {post : α → σ → Prop} (spares : x.Spares s post) :
    x.left s = (x.final s).toOption.getD s := by
  unfold Spares at spares
  unfold left final value
  rcases ran : x.on s with ⟨e | a, after⟩
  · rw [ran] at spares
    exact spares
  · rfl

/-- A computation that spares the state where it fails comes to what it comes to as a value. -/
theorem Spares.on_eq {post : α → σ → Prop} (spares : x.Spares s post) :
    x.on s = match x.value s with
      | .ok (a, after) => (.ok a, after)
      | .error e => (.error e, s) := by
  unfold Spares at spares
  unfold value
  rcases ran : x.on s with ⟨e | a, after⟩
  · rw [ran] at spares
    exact congrArg _ spares
  · rfl

end Spares

end InPlace

end Coordination
