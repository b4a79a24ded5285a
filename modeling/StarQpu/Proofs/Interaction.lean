import StarQpu.Interaction

/-!
# StarQpu.Proofs.Interaction

**Interactions step by step.** The equations say what a chain does when it starts with a known step.
`Keeps P x` says that `x` preserves a property of states, whether it fails or not. `Agrees R x y s
s'` says that two interactions give the same result from two states, and relates that result and the
states in which they end. Both pass through chains, so a proof about an interaction follows its
text; events count for neither.
-/

namespace StarQpu.Interaction

variable {σ α β : Type}

theorem bind_apply (x : Interaction σ α) (f : α → Interaction σ β) (t : Traced σ) :
    (x >>= f) t =
      match x t with
      | .ok a t => f a t
      | .error e t => .error e t := by
  change EStateM.bind x f t = _
  unfold EStateM.bind
  cases x t <;> rfl

theorem tryCatch_apply (x : Interaction σ α) (f : ClientError → Interaction σ α) (t : Traced σ) :
    (tryCatch x f) t =
      match x t with
      | .ok a t => .ok a t
      | .error e t => f e t := by
  change EStateM.tryCatch x f t = _
  unfold EStateM.tryCatch
  cases x t <;> rfl

theorem bind_of_ok {x : Interaction σ α} {f : α → Interaction σ β} {t u : Traced σ} {a : α}
    (h : x t = .ok a u) : (x >>= f) t = f a u := by
  rw [bind_apply, h]

theorem bind_of_error {x : Interaction σ α} {f : α → Interaction σ β} {t u : Traced σ}
    {e : ClientError} (h : x t = .error e u) : (x >>= f) t = .error e u := by
  rw [bind_apply, h]

theorem state_bind_apply (f : σ → Interaction σ α) (t : Traced σ) :
    (state >>= f) t = f t.state t := rfl

theorem update_bind_apply (f : σ → σ) (x : Unit → Interaction σ α) (t : Traced σ) :
    (update f >>= x) t = x () ⟨f t.state, t.log⟩ := rfl

theorem tell_bind_apply (event : Event) (x : Unit → Interaction σ α) (t : Traced σ) :
    (tell event >>= x) t = x () ⟨t.state, t.log ++ [event]⟩ := rfl

/-- A result that is only passed on in another form. -/
theorem return_of_ofExcept {x : Interaction σ α} {t u : Traced σ} {result : Except ClientError α}
    (f : α → β) (h : x t = ofExcept result u) :
    (do return f (← x) : Interaction σ β) t = ofExcept (result.map f) u := by
  cases result with
  | error e => exact bind_of_error h
  | ok a => exact bind_of_ok h

theorem run_of_ofExcept {x : Interaction σ α} {s : σ} {result : Except ClientError α} {t : Traced σ}
    (h : x ⟨s, []⟩ = ofExcept result t) : x.run s = (⟨t.log, result⟩, t.state) := by
  unfold run
  rw [show EStateM.run x ⟨s, []⟩ = ofExcept result t from h]
  cases result <;> rfl

theorem run_of_ofLogged {x : Interaction σ α} {y : Logged ClientError α} {s : σ} {t : Traced σ}
    (h : x ⟨s, []⟩ = ofLogged y t) : x.run s = (⟨t.log ++ y.log, y.result⟩, t.state) := by
  obtain ⟨events, result⟩ := y
  exact run_of_ofExcept (t := ⟨t.state, t.log ++ events⟩) h

/-! ### What every run preserves -/

/-- Does the interaction lead from states with this property to such states, whether it fails or
not? -/
def Keeps (P : σ → Prop) (x : Interaction σ α) : Prop :=
  ∀ s log, P s → ∃ result t, P t.state ∧ x ⟨s, log⟩ = ofExcept result t

variable {P : σ → Prop}

theorem keeps_ofExcept (result : Except ClientError α) : Keeps P (ofExcept result) :=
  fun s log hs => ⟨result, ⟨s, log⟩, hs, rfl⟩

theorem keeps_pure (a : α) : Keeps P (pure a) := keeps_ofExcept (.ok a)

theorem keeps_throw (e : ClientError) : Keeps P (throw e : Interaction σ α) :=
  keeps_ofExcept (.error e)

theorem keeps_tellAll (events : List Event) : Keeps P (tellAll events) :=
  fun s log hs => ⟨.ok (), ⟨s, log ++ events⟩, hs, rfl⟩

theorem keeps_of_update {f : σ → σ} {x : Unit → Interaction σ α} (h : ∀ s, P s → P (f s))
    (hx : Keeps P (x ())) : Keeps P (update f >>= x) :=
  fun s log hs => hx (f s) log (h s hs)

theorem keeps_of_state {f : σ → Interaction σ α} (h : ∀ s, P s → Keeps P (f s)) :
    Keeps P (state >>= f) :=
  fun s log hs => h s hs s log hs

theorem Keeps.bind {x : Interaction σ α} {f : α → Interaction σ β} (hx : Keeps P x)
    (hf : ∀ a, Keeps P (f a)) : Keeps P (x >>= f) := by
  intro s log hs
  obtain ⟨result, t, ht, hresult⟩ := hx s log hs
  cases result with
  | error e => exact ⟨.error e, t, ht, bind_of_error hresult⟩
  | ok a =>
      rw [bind_of_ok hresult]
      exact hf a t.state t.log ht

theorem Keeps.tryCatch {x : Interaction σ α} {f : ClientError → Interaction σ α} (hx : Keeps P x)
    (hf : ∀ e, Keeps P (f e)) : Keeps P (tryCatch x f) := by
  intro s log hs
  obtain ⟨result, t, ht, hresult⟩ := hx s log hs
  rw [tryCatch_apply, hresult]
  cases result with
  | error e => exact hf e t.state t.log ht
  | ok a => exact ⟨.ok a, t, ht, rfl⟩

theorem keeps_ofLogged (x : Logged ClientError α) : Keeps P (ofLogged x) :=
  (keeps_tellAll x.log).bind fun _ => keeps_ofExcept x.result

/-! ### Two runs side by side -/

/-- Do the interactions give the same result from these states, and does the relation hold of it and
of the states that they end in? -/
def Agrees (R : Except ClientError α → σ → σ → Prop) (x y : Interaction σ α) (s s' : σ) : Prop :=
  ∀ log log', ∃ result t t', R result t.state t'.state ∧
    x ⟨s, log⟩ = ofExcept result t ∧ y ⟨s', log'⟩ = ofExcept result t'

variable {R : Except ClientError α → σ → σ → Prop} {Q : Except ClientError β → σ → σ → Prop}
  {x y : Interaction σ α} {s s' : σ}

theorem agrees_ofExcept {result : Except ClientError α} (h : R result s s') :
    Agrees R (ofExcept result) (ofExcept result) s s' :=
  fun log log' => ⟨result, ⟨s, log⟩, ⟨s', log'⟩, h, rfl, rfl⟩

theorem agrees_pure {a : α} (h : R (.ok a) s s') : Agrees R (pure a) (pure a) s s' :=
  agrees_ofExcept h

theorem agrees_throw {e : ClientError} (h : R (.error e) s s') :
    Agrees R (throw e : Interaction σ α) (throw e) s s' :=
  agrees_ofExcept h

theorem agrees_of_state {f g : σ → Interaction σ α} (h : Agrees R (f s) (g s') s s') :
    Agrees R (state >>= f) (state >>= g) s s' :=
  h

theorem agrees_of_update {f g : σ → σ} {x y : Unit → Interaction σ α}
    (h : Agrees R (x ()) (y ()) (f s) (g s')) :
    Agrees R (update f >>= x) (update g >>= y) s s' :=
  h

theorem agrees_of_tellAll {events : List Event} {x y : Unit → Interaction σ α}
    (h : Agrees R (x ()) (y ()) s s') :
    Agrees R (tellAll events >>= x) (tellAll events >>= y) s s' :=
  fun log log' => h (log ++ events) (log' ++ events)

theorem Agrees.mono {P : Except ClientError α → σ → σ → Prop} (h : Agrees R x y s s')
    (himplies : ∀ result t t', R result t t' → P result t t') : Agrees P x y s s' := by
  intro log log'
  obtain ⟨result, t, t', hend, hx, hy⟩ := h log log'
  exact ⟨result, t, t', himplies _ _ _ hend, hx, hy⟩

/-- Chains agree if their first steps do and whatever follows them does. -/
theorem Agrees.bind {f g : α → Interaction σ β} (h : Agrees R x y s s')
    (hfail : ∀ e t t', R (.error e) t t' → Q (.error e) t t')
    (hnext : ∀ a t t', R (.ok a) t t' → Agrees Q (f a) (g a) t t') :
    Agrees Q (x >>= f) (y >>= g) s s' := by
  intro log log'
  obtain ⟨result, t, t', hend, hx, hy⟩ := h log log'
  cases result with
  | error e => exact ⟨.error e, t, t', hfail _ _ _ hend, bind_of_error hx, bind_of_error hy⟩
  | ok a =>
      rw [bind_of_ok hx, bind_of_ok hy]
      exact hnext a t.state t'.state hend t.log t'.log

/-- The same when one relation holds of the states all along. -/
theorem Agrees.andThen {P : σ → σ → Prop} {f g : α → Interaction σ β}
    (h : Agrees (fun _ => P) x y s s')
    (hnext : ∀ a t t', P t t' → Agrees (fun _ => P) (f a) (g a) t t') :
    Agrees (fun _ => P) (x >>= f) (y >>= g) s s' :=
  h.bind (fun _ _ _ hend => hend) hnext

theorem Agrees.andReturn {P : σ → σ → Prop} (h : Agrees (fun _ => P) x y s s') (f : α → β) :
    Agrees (fun _ => P) (do return f (← x)) (do return f (← y)) s s' :=
  h.andThen fun _ _ _ hend => agrees_pure hend

theorem Agrees.tryCatch {f g : ClientError → Interaction σ α}
    {P : Except ClientError α → σ → σ → Prop} (h : Agrees R x y s s')
    (hdone : ∀ a t t', R (.ok a) t t' → P (.ok a) t t')
    (hnext : ∀ e t t', R (.error e) t t' → Agrees P (f e) (g e) t t') :
    Agrees P (tryCatch x f) (tryCatch y g) s s' := by
  intro log log'
  obtain ⟨result, t, t', hend, hx, hy⟩ := h log log'
  rw [tryCatch_apply, tryCatch_apply, hx, hy]
  cases result with
  | error e => exact hnext e t.state t'.state hend t.log t'.log
  | ok a => exact ⟨.ok a, t, t', hdone _ _ _ hend, rfl, rfl⟩

theorem agrees_ofLogged {x : Logged ClientError α} (h : R x.result s s') :
    Agrees R (ofLogged x) (ofLogged x) s s' :=
  agrees_of_tellAll (agrees_ofExcept h)

end StarQpu.Interaction
