import FilterLine.Proofs.Cache.Step

/-!
Accessors as sequences of steps. What a piece of an accessor does from a session is either to
succeed after some steps, with an answer and a session of which something holds, or to end in the
error of a query that failed after some steps. The rules follow the way the accessors are put
together.
-/
namespace FilterLine

namespace Act

variable {α β : Type}

/-- What an action gives, and the session it leaves. -/
def result (x : Act α) (s : Session) : Except ToolError α × Session := x.run.run s

@[simp] theorem result_pure (a : α) (s : Session) : (pure a : Act α).result s = (.ok a, s) := rfl

theorem result_get (s : Session) : (get : Act Session).result s = (.ok s, s) := rfl

theorem result_bind (x : Act α) (f : α → Act β) (s : Session) :
    (x >>= f).result s = match x.result s with
      | (.ok a, s') => (f a).result s'
      | (.error e, s') => (.error e, s') := by
  simp only [result, ExceptT.run_bind, StateT.run_bind]
  generalize StateT.run (ExceptT.run x) s = r
  obtain ⟨r, s'⟩ := r
  cases r with
  | ok a => rfl
  | error e => rfl

/-- After a success the next step goes on from the session that the first one leaves. -/
theorem result_bind_ok {x : Act α} {s s' : Session} {a : α} (h : x.result s = (.ok a, s'))
    (f : α → Act β) : (x >>= f).result s = (f a).result s' := by
  rw [result_bind, h]

/-- After a failure nothing more is done. -/
theorem result_bind_error {x : Act α} {s s' : Session} {e : ToolError}
    (h : x.result s = (.error e, s')) (f : α → Act β) : (x >>= f).result s = (.error e, s') := by
  rw [result_bind, h]

/-- What an action leads to. A success comes after some steps and has the property; a failure is
that of a query, the last thing that happens. -/
def Leads (tool : Tool) (may : Query → Prop) (x : Act α) (s : Session)
    (Q : α → Session → Prop) : Prop :=
  match x.result s with
  | (.ok a, s') => Gains tool may s s' ∧ Q a s'
  | (.error e, s') => ∃ s₁, Gains tool may s s₁ ∧ Refused tool may e s₁ s'

section Rules

variable {tool : Tool} {may : Query → Prop} {s s' : Session} {x : Act α}
  {Q R : α → Session → Prop}

theorem leads_of_ok {a : α} (h : x.result s = (.ok a, s')) (hgains : Gains tool may s s')
    (hQ : Q a s') : Leads tool may x s Q := by
  rw [Leads, h]
  exact ⟨hgains, hQ⟩

theorem leads_of_error {e : ToolError} (h : x.result s = (.error e, s'))
    (hrefused : Refused tool may e s s') : Leads tool may x s Q := by
  rw [Leads, h]
  exact ⟨s, .refl, hrefused⟩

theorem leads_pure {a : α} (h : Q a s) : Leads tool may (pure a) s Q :=
  leads_of_ok rfl .refl h

/-- What is shown of the outcome may be replaced by what follows from it. -/
theorem Leads.mono (h : Leads tool may x s Q)
    (hQ : ∀ a s', Gains tool may s s' → Q a s' → R a s') : Leads tool may x s R := by
  unfold Leads at h ⊢
  split
  · rename_i a s' hx
    rw [hx] at h
    exact ⟨h.1, hQ a s' h.1 h.2⟩
  · rename_i e s' hx
    rw [hx] at h
    exact h

/-- An action goes on where the one before it has left off. -/
theorem Leads.bind {f : α → Act β} {P : β → Session → Prop} (h : Leads tool may x s Q)
    (hf : ∀ a s', Gains tool may s s' → Q a s' → Leads tool may (f a) s' P) :
    Leads tool may (x >>= f) s P := by
  unfold Leads at h
  split at h
  · rename_i a s' hx
    obtain ⟨hgains, hQ⟩ := h
    have hrest := hf a s' hgains hQ
    unfold Leads at hrest ⊢
    rw [result_bind_ok hx]
    split
    · rename_i b s'' hb
      rw [hb] at hrest
      exact ⟨hgains.trans hrest.1, hrest.2⟩
    · rename_i e s'' he
      rw [he] at hrest
      obtain ⟨s₁, hs₁, hrefused⟩ := hrest
      exact ⟨s₁, hgains.trans hs₁, hrefused⟩
  · rename_i e s' hx
    unfold Leads
    rw [result_bind_error hx]
    exact h

end Rules

end Act

namespace Cache

open Act

variable {tool : Tool} {may : Query → Prop} {s : Session}

/-- A query is noted whether or not it fails. -/
theorem result_ask (q : Query) (s : Session) :
    (ask tool q).result s = (tool s.queries q, s.noted (.asked q)) := by
  have hnote : (note (.asked q)).result s = (.ok (), s.noted (.asked q)) := rfl
  rw [ask, result_bind_ok (result_get s), result_bind_ok hnote]
  cases tool s.queries q with
  | ok a => rfl
  | error e => rfl

theorem result_remember (store : SchemaData → SchemaData) (s : Session) :
    (remember store).result s = (.ok (), s.stored store) := rfl

/-- The tool is asked for its version unless the version is known already. -/
theorem result_liveVersion (s : Session) :
    (liveVersion tool).result s = match s.live with
      | some v => (.ok v, s)
      | none => match tool s.queries .version with
        | .ok v => (.ok v, s.told v)
        | .error e => (.error e, s.noted (.asked .version)) := by
  rw [liveVersion, result_bind_ok (result_get s)]
  simp only [Session.live]
  cases s.cache.live with
  | some v => rfl
  | none =>
    have hask : (ask tool .version).result s = _ := result_ask .version s
    cases ha : tool s.queries .version with
    | ok v =>
      rw [ha] at hask
      exact result_bind_ok hask _
    | error e =>
      rw [ha] at hask
      exact result_bind_error hask _

/-- A version that has been given is known from then on. -/
theorem leads_liveVersion (s : Session) :
    Leads tool may (liveVersion tool) s fun v s' => s'.live = some v := by
  have hresult : (liveVersion tool).result s = _ := result_liveVersion s
  cases h : s.live with
  | some v =>
    rw [h] at hresult
    exact leads_of_ok hresult .refl h
  | none =>
    rw [h] at hresult
    cases ha : tool s.queries .version with
    | ok v =>
      rw [ha] at hresult
      exact leads_of_ok hresult (.single (.told h ha)) rfl
    | error e =>
      rw [ha] at hresult
      exact leads_of_error hresult (.mk (.inl rfl) h ha)

/-- Data that is known to be current is left as it is. -/
theorem result_ensureCurrent (h : s.Current) : (ensureCurrent tool).result s = (.ok (), s) := by
  rw [ensureCurrent, result_bind_ok (by rw [result_liveVersion, h]),
    result_bind_ok (result_get s), if_neg (not_not_intro rfl), result_pure]

/-- Whatever is known, the data is current afterwards; what was current is not touched. -/
theorem leads_ensureCurrent (s : Session) :
    Leads tool may (ensureCurrent tool) s fun _ s' => s'.Current ∧ (s.Current → s' = s) := by
  by_cases hs : s.Current
  · exact leads_of_ok (result_ensureCurrent hs) .refl ⟨hs, fun _ => rfl⟩
  · refine (leads_liveVersion s).bind fun v s' _ hlive => ?_
    unfold Leads
    rw [result_bind_ok (result_get s')]
    by_cases h : s'.version = v
    · rw [if_neg (not_not_intro h), result_pure]
      exact ⟨.refl, hlive.trans (by rw [h]), fun hcurrent => absurd hcurrent hs⟩
    · rw [if_pos h]
      exact ⟨.single (.reset hlive h), hlive, fun hcurrent => absurd hcurrent hs⟩

variable {α : Type} {read : SchemaData → Option α} {fetch : Act α}
  {store : α → SchemaData → SchemaData}

/-- What is remembered as current is given without a step. -/
theorem result_fromMemory_hit {a : α} (h : s.Current) (ha : read s.data = some a) :
    (fromMemory tool read fetch store).result s = (.ok a, s) := by
  rw [fromMemory, result_bind_ok (result_ensureCurrent h), result_bind_ok (result_get s), ha,
    result_pure]

/-- What is remembered has the property; what is not has to be fetched first. -/
theorem leads_fromMemory {Q : α → Session → Prop}
    (hit : ∀ a s', s'.Current → (s.Current → s' = s) → read s'.data = some a → Q a s')
    (miss : ∀ s', s'.Current → (s.Current → s' = s) → read s'.data = none →
      Leads tool may (do
        let a ← fetch
        remember (store a)
        pure a) s' Q) :
    Leads tool may (fromMemory tool read fetch store) s Q := by
  refine (leads_ensureCurrent s).bind fun _ s' _ hs' => ?_
  unfold Leads
  rw [result_bind_ok (result_get s')]
  cases h : read s'.data with
  | some a => exact leads_pure (hit a s' hs'.1 hs'.2 h)
  | none => exact miss s' hs'.1 hs'.2 h

/-- What has been learned is known. -/
theorem known?_learn {q : Query} (hq : q ≠ .version) (a : q.Answer) (d : SchemaData) :
    q.known? (q.learn a d) = some a := by
  cases q with
  | version => exact absurd rfl hq
  | filterArgs f => exact (Table.get?_insert ..).trans (if_pos rfl)
  | argument f a => exact (Table.get?_insert ..).trans (if_pos rfl)
  | _ => rfl

/-- Asking for what is missing and remembering the answer is one step. -/
theorem leads_learn {q : Query} (hmay : may q) (hq : q ≠ .version) (h : s.MayAsk q) :
    Leads tool may (do
        let a ← ask tool q
        remember (q.learn a)
        pure a) s fun a s' =>
      s'.Current ∧ q.known? s'.data = some a ∧ s'.data = q.learn a s.data := by
  have hask : (ask tool q).result s = _ := result_ask q s
  cases ha : tool s.queries q with
  | ok a =>
    rw [ha] at hask
    refine leads_of_ok ?_ (.single (.learned hmay hq h ha)) ⟨h.current hq, known?_learn hq a _, rfl⟩
    rw [result_bind_ok hask]
    rfl
  | error e =>
    rw [ha] at hask
    exact leads_of_error (result_bind_error hask _) (.mk (.inr hmay) h ha)

end Cache
end FilterLine
