import DomainKmip.Kmip
import DomainKmip.Library.Interaction
import DomainKmip.Library.RustResult

/-!
Functions of the crate that talk to the pool and the server: interaction programs
that end with the outcome of a Rust call. `?` stops the program.
-/

namespace DomainKmip.Client

open DomainKmip.Library.BigEndian
open DomainKmip.Library.RustResult
open DomainKmip.Library.Interaction
open DomainKmip.Kmip

structure Action (ε α : Type) where
  program : Program Call Reply (Outcome ε α)

/-- Take a client from the pool for the duration of `body`. The client is dropped
on every way out of its scope. -/
def bracket {β : Type} (pool : ConnPool) (onErr : KmipConnError → β)
    (body : Program Call Reply β) : Program Call Reply β :=
  .call (.connect pool) fun
    | .error err => .done (onErr err)
    | .ok _ => body >>= fun b => .call (.release pool) fun _ => .done b

namespace Action

variable {ε ε' α β : Type}

def bind (x : Action ε α) (f : α → Action ε β) : Action ε β where
  program := x.program >>= fun
    | .ok a => (f a).program
    | .err e => .done (.err e)
    | .panic => .done .panic

instance : Monad (Action ε) where
  pure a := ⟨.done (.ok a)⟩
  bind := bind

def lift (x : Outcome ε α) : Action ε α := ⟨.done x⟩

def mapErr (f : ε → ε') (x : Action ε α) : Action ε' α where
  program := x.program >>= fun outcome => .done (outcome.mapErr f)

def withClient (pool : ConnPool) (onErr : KmipConnError → ε) (body : Action ε α) :
    Action ε α where
  program := bracket pool (fun err => .err (onErr err)) body.program

def query (pool : ConnPool) : Action ε (Except NetError QueryResponsePayload) where
  program := .call (.query pool) fun reply => .done (.ok reply)

def doRequestPayload (pool : ConnPool) (request : RequestPayload) :
    Action ε (Except NetError (Except NetError ResponsePayload)) where
  program := .call (.doRequestPayload pool request) fun reply => .done (.ok reply)

def doRequestBatch (pool : ConnPool) (queue : List BatchItem) :
    Action ε (Except NetError (List (Except NetError BatchItemResponse))) where
  program := .call (.doRequestBatch pool queue) fun reply => .done (.ok reply)

def getKey (pool : ConnPool) (id : UniqueIdentifier) :
    Action ε (Except NetError ManagedObject) where
  program := .call (.getKey pool id) fun reply => .done (.ok reply)

def revokeKey (pool : ConnPool) (id : UniqueIdentifier) : Action ε (Except NetError Unit) where
  program := .call (.revokeKey pool id) fun reply => .done (.ok reply)

def destroyKey (pool : ConnPool) (id : UniqueIdentifier) : Action ε (Except NetError Unit) where
  program := .call (.destroyKey pool id) fun reply => .done (.ok reply)

end Action

theorem Action.lift_bind_lift {ε α β : Type} (x : Outcome ε α) (g : α → Outcome ε β) :
    (Action.lift x >>= fun a => Action.lift (g a)) = Action.lift (x >>= g) := by
  cases x <;> rfl

section Eval

variable {ε ε' α β : Type} (reply : (call : Call) → Reply call)

theorem eval_bracket (pool : ConnPool) (onErr : KmipConnError → β)
    (body : Program Call Reply β) :
    (bracket pool onErr body).eval reply =
      match reply (.connect pool) with
      | .error err => onErr err
      | .ok _ => body.eval reply := by
  rw [bracket, Program.eval_call]
  cases reply (.connect pool) with
  | error err => rfl
  | ok _ => exact Program.eval_bind reply body _

namespace Action

def eval (x : Action ε α) : Outcome ε α := x.program.eval reply

@[simp] theorem eval_pure (a : α) : (pure a : Action ε α).eval reply = .ok a := rfl

@[simp] theorem eval_bind (x : Action ε α) (f : α → Action ε β) :
    (x >>= f).eval reply = (x.eval reply >>= fun a => (f a).eval reply) := by
  have h : (x >>= f).eval reply = _ := Program.eval_bind reply x.program _
  rw [h, eval]
  cases x.program.eval reply <;> rfl

@[simp] theorem eval_lift (x : Outcome ε α) : (lift x).eval reply = x := rfl

@[simp] theorem eval_mapErr (f : ε → ε') (x : Action ε α) :
    (x.mapErr f).eval reply = (x.eval reply).mapErr f :=
  Program.eval_bind reply x.program _

@[simp] theorem eval_withClient (pool : ConnPool) (onErr : KmipConnError → ε)
    (body : Action ε α) :
    (withClient pool onErr body).eval reply =
      (Outcome.ofExcept onErr (reply (.connect pool)) >>= fun _ => body.eval reply) := by
  rw [eval, withClient, eval_bracket]
  cases reply (.connect pool) <;> rfl

@[simp] theorem eval_query (pool : ConnPool) :
    (query pool : Action ε _).eval reply = .ok (reply (.query pool)) := rfl

@[simp] theorem eval_doRequestPayload (pool : ConnPool) (request : RequestPayload) :
    (doRequestPayload pool request : Action ε _).eval reply =
      .ok (reply (.doRequestPayload pool request)) := rfl

@[simp] theorem eval_doRequestBatch (pool : ConnPool) (queue : List BatchItem) :
    (doRequestBatch pool queue : Action ε _).eval reply =
      .ok (reply (.doRequestBatch pool queue)) := rfl

@[simp] theorem eval_getKey (pool : ConnPool) (id : UniqueIdentifier) :
    (getKey pool id : Action ε _).eval reply = .ok (reply (.getKey pool id)) := rfl

end Action

end Eval

/-- Whatever the replies, what comes after a bind only runs on a result. -/
theorem Action.of_admits_bind {ε α β : Type} {x : Action ε α} {f : α → Action ε β}
    {t : List (Event Call Reply)} {b : β} (h : (x >>= f).program.Admits t (.ok b)) :
    ∃ t₁ t₂ a, t = t₁ ++ t₂ ∧ x.program.Admits t₁ (.ok a) ∧ (f a).program.Admits t₂ (.ok b) := by
  obtain ⟨t₁, t₂, a | e | _, ht, hx, hf⟩ := Program.Admits.of_bind h
  · exact ⟨t₁, t₂, a, ht, hx, hf⟩
  · exact nomatch hf
  · exact nomatch hf

theorem of_admits_bracket {β : Type} {pool : ConnPool} {onErr : KmipConnError → β}
    {body : Program Call Reply β} {t : List (Event Call Reply)} {b : β}
    (h : (bracket pool onErr body).Admits t b) :
    (∃ err, t = [⟨.connect pool, .error err⟩] ∧ onErr err = b) ∨
      ∃ t', t = ⟨.connect pool, .ok ()⟩ :: (t' ++ [⟨.release pool, ()⟩]) ∧ body.Admits t' b := by
  cases h with
  | call r h =>
      rcases r with err | ⟨⟩
      · obtain ⟨rfl, rfl⟩ := Program.Admits.of_done h
        exact Or.inl ⟨err, rfl, rfl⟩
      · obtain ⟨t₁, t₂, b', rfl, hbody, hrelease⟩ := Program.Admits.of_bind h
        obtain ⟨r, rfl, rfl⟩ := Program.Admits.of_request hrelease
        exact Or.inr ⟨t₁, rfl, hbody⟩

theorem admits_bracket {β : Type} {pool : ConnPool} {onErr : KmipConnError → β}
    {body : Program Call Reply β} {t : List (Event Call Reply)} {b : β} (h : body.Admits t b) :
    (bracket pool onErr body).Admits
      (⟨.connect pool, .ok ()⟩ :: (t ++ [⟨.release pool, ()⟩])) b := by
  rw [bracket]
  apply Program.Admits.call
  apply h.bind
  apply Program.Admits.call
  exact .done b

namespace Action

variable {ε ε' α β : Type} {t : List (Event Call Reply)}

theorem of_admits_lift_bind {x : Outcome ε α} {f : α → Action ε β} {b : β}
    (h : (lift x >>= f).program.Admits t (.ok b)) :
    ∃ a, x = .ok a ∧ (f a).program.Admits t (.ok b) := by
  obtain ⟨t₁, t₂, a, rfl, hlift, hf⟩ := of_admits_bind h
  obtain ⟨rfl, rfl⟩ := Program.Admits.of_done hlift
  exact ⟨a, rfl, hf⟩

/-- After one of the client's methods. -/
theorem of_admits_request_bind {call : Call} {x : Action ε (Reply call)}
    {f : Reply call → Action ε β} {b : β}
    (hx : x.program = .call call fun reply => .done (.ok reply))
    (h : (x >>= f).program.Admits t (.ok b)) :
    ∃ reply t', t = ⟨call, reply⟩ :: t' ∧ (f reply).program.Admits t' (.ok b) := by
  obtain ⟨t₁, t₂, a, rfl, hrequest, hf⟩ := of_admits_bind h
  rw [hx] at hrequest
  obtain ⟨reply, rfl, heq⟩ := Program.Admits.of_request hrequest
  obtain rfl : reply = a := Outcome.ok.inj heq
  exact ⟨reply, t₂, rfl, hf⟩

theorem of_admits_lift {x o : Outcome ε α} (h : (lift x).program.Admits t o) : t = [] ∧ x = o :=
  Program.Admits.of_done h

theorem of_admits_mapErr {f : ε → ε'} {x : Action ε α} {a : α}
    (h : (x.mapErr f).program.Admits t (.ok a)) : x.program.Admits t (.ok a) := by
  obtain ⟨t₁, t₂, o, rfl, hx, hdone⟩ := Program.Admits.of_bind h
  obtain ⟨rfl, heq⟩ := Program.Admits.of_done hdone
  rw [Outcome.mapErr_eq_ok_iff.mp heq] at hx
  simpa using hx

/-- A session of one request, whose reply is all that counts. -/
theorem of_admits_session {pool : ConnPool} {onErr : KmipConnError → ε} {call : Call}
    {x : Action ε (Reply call)} {g : Reply call → Outcome ε α} {o : Outcome ε α}
    (hx : x.program = .call call fun reply => .done (.ok reply))
    (h : (withClient pool onErr (x >>= fun reply => lift (g reply))).program.Admits t o) :
    (∃ err, t = [⟨.connect pool, .error err⟩] ∧ .err (onErr err) = o) ∨
      ∃ reply, t = [⟨.connect pool, .ok ()⟩, ⟨call, reply⟩, ⟨.release pool, ()⟩] ∧
        g reply = o := by
  rcases of_admits_bracket h with hrefused | ⟨t', rfl, hbody⟩
  · exact Or.inl hrefused
  · obtain ⟨t₁, t₂, a, rfl, hrequest, hlift⟩ := Program.Admits.of_bind hbody
    rw [hx] at hrequest
    obtain ⟨reply, rfl, rfl⟩ := Program.Admits.of_request hrequest
    obtain ⟨rfl, rfl⟩ := of_admits_lift hlift
    exact Or.inr ⟨reply, rfl, rfl⟩

/-- A result comes from the body, with a client around it. -/
theorem of_admits_withClient {pool : ConnPool} {onErr : KmipConnError → ε} {body : Action ε α}
    {a : α} (h : (withClient pool onErr body).program.Admits t (.ok a)) :
    ∃ t', t = ⟨.connect pool, .ok ()⟩ :: (t' ++ [⟨.release pool, ()⟩]) ∧
      body.program.Admits t' (.ok a) := by
  rcases of_admits_bracket h with ⟨err, _, heq⟩ | hbody
  · simp at heq
  · exact hbody

end Action

section Meets

variable {σ ε ε' α β : Type} {env : Environment Call Reply σ} {allowed : σ → Call → Prop}
  {s : σ}

theorem meets_bracket {pool : ConnPool} {onErr : KmipConnError → β}
    {body : Program Call Reply β} {post : β → σ → Prop} :
    (bracket pool onErr body).Meets env allowed post s ↔
      allowed s (.connect pool) ∧
        (∀ err s', env s (.connect pool) (.error err) s' → post (onErr err) s') ∧
        ∀ s', env s (.connect pool) (.ok ()) s' →
          body.Meets env allowed (fun b s₁ => allowed s₁ (.release pool) ∧
            ∀ s₂, env s₁ (.release pool) () s₂ → post b s₂) s' := by
  rw [bracket, Program.meets_call]
  refine and_congr_right fun _ => ?_
  constructor
  · intro h
    refine ⟨fun err s' hs => h (.error err) s' hs, fun s' hs => ?_⟩
    have hbody := h (.ok ()) s' hs
    rw [Program.meets_bind] at hbody
    exact hbody.mono fun b s₁ hb => ⟨hb.1, fun s₂ hs₂ => hb.2 () s₂ hs₂⟩
  · rintro ⟨herr, hok⟩ (err | ⟨⟩) s' hs
    · exact herr err s' hs
    · rw [Program.meets_bind]
      exact (hok s' hs).mono fun b s₁ hb => ⟨hb.1, fun _ s₂ hs₂ => hb.2 s₂ hs₂⟩

namespace Action

def Meets (env : Environment Call Reply σ) (allowed : σ → Call → Prop)
    (post : Outcome ε α → σ → Prop) (x : Action ε α) (s : σ) : Prop :=
  x.program.Meets env allowed post s

variable {post : Outcome ε α → σ → Prop}

theorem Meets.mono {post' : Outcome ε α → σ → Prop} {x : Action ε α}
    (h : x.Meets env allowed post s) (hpost : ∀ o s', post o s' → post' o s') :
    x.Meets env allowed post' s :=
  Program.Meets.mono h hpost

theorem Meets.post_of_admits {x : Action ε α} (h : x.Meets env allowed post s) {s' : σ}
    {t : List (Event Call Reply)} {o : Outcome ε α} (ha : x.program.Admits t o)
    (hs : Steps env s t s') : post o s' :=
  Program.Meets.post_of_admits h ha hs

@[simp] theorem meets_pure {a : α} :
    (pure a : Action ε α).Meets env allowed post s ↔ post (.ok a) s := Iff.rfl

@[simp] theorem meets_lift {x : Outcome ε α} :
    (lift x).Meets env allowed post s ↔ post x s := Iff.rfl

/-- What an outcome that is not `Ok` satisfies, it satisfies at once. -/
def andThen (post : Outcome ε β → σ → Prop) (next : α → σ → Prop) :
    Outcome ε α → σ → Prop
  | .ok a, s => next a s
  | .err e, s => post (.err e) s
  | .panic, s => post .panic s

theorem meets_bind {x : Action ε β} {f : β → Action ε α} :
    (x >>= f).Meets env allowed post s ↔
      x.Meets env allowed (andThen post fun b s' => (f b).Meets env allowed post s') s := by
  have h : (x >>= f).Meets env allowed post s ↔ _ := Program.meets_bind (p := x.program)
  apply h.trans
  constructor <;> intro h <;> refine Program.Meets.mono h ?_ <;>
    rintro (b | e | _) s' hb <;> exact hb

theorem meets_mapErr {f : ε' → ε} {x : Action ε' α} :
    (x.mapErr f).Meets env allowed post s ↔
      x.Meets env allowed (fun o s' => post (o.mapErr f) s') s :=
  Program.meets_bind

theorem meets_withClient {pool : ConnPool} {onErr : KmipConnError → ε} {body : Action ε α} :
    (withClient pool onErr body).Meets env allowed post s ↔
      allowed s (.connect pool) ∧
        (∀ err s', env s (.connect pool) (.error err) s' → post (.err (onErr err)) s') ∧
        ∀ s', env s (.connect pool) (.ok ()) s' →
          body.Meets env allowed (fun o s₁ => allowed s₁ (.release pool) ∧
            ∀ s₂, env s₁ (.release pool) () s₂ → post o s₂) s' :=
  meets_bracket

theorem meets_query {pool : ConnPool} {post : Outcome ε (Except NetError QueryResponsePayload) →
    σ → Prop} :
    (query pool).Meets env allowed post s ↔ allowed s (.query pool) ∧
      ∀ r s', env s (.query pool) r s' → post (.ok r) s' := Iff.rfl

theorem meets_doRequestPayload {pool : ConnPool} {request : RequestPayload}
    {post : Outcome ε (Except NetError (Except NetError ResponsePayload)) → σ → Prop} :
    (doRequestPayload pool request).Meets env allowed post s ↔
      allowed s (.doRequestPayload pool request) ∧
        ∀ r s', env s (.doRequestPayload pool request) r s' → post (.ok r) s' := Iff.rfl

theorem meets_getKey {pool : ConnPool} {id : UniqueIdentifier}
    {post : Outcome ε (Except NetError ManagedObject) → σ → Prop} :
    (getKey pool id).Meets env allowed post s ↔ allowed s (.getKey pool id) ∧
      ∀ r s', env s (.getKey pool id) r s' → post (.ok r) s' := Iff.rfl

theorem meets_revokeKey {pool : ConnPool} {id : UniqueIdentifier}
    {post : Outcome ε (Except NetError Unit) → σ → Prop} :
    (revokeKey pool id).Meets env allowed post s ↔ allowed s (.revokeKey pool id) ∧
      ∀ r s', env s (.revokeKey pool id) r s' → post (.ok r) s' := Iff.rfl

theorem meets_destroyKey {pool : ConnPool} {id : UniqueIdentifier}
    {post : Outcome ε (Except NetError Unit) → σ → Prop} :
    (destroyKey pool id).Meets env allowed post s ↔ allowed s (.destroyKey pool id) ∧
      ∀ r s', env s (.destroyKey pool id) r s' → post (.ok r) s' := Iff.rfl

end Action

end Meets

end DomainKmip.Client
