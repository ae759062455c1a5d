import DomainKmip.Sessions
import Mathlib.Algebra.BigOperators.Group.Finset.Basic

namespace DomainKmip.ConnectionPools

open DomainKmip.Library.Concurrency
open DomainKmip.Kmip
open DomainKmip.Dependencies
open DomainKmip.SigningSafety
open DomainKmip.GenerateSafety
open DomainKmip.Operations
open DomainKmip.Sessions

def poolOf : Call → ConnPool
  | .connect pool | .release pool | .query pool | .doRequestPayload pool _
  | .doRequestBatch pool _ | .getKey pool _ | .revokeKey pool _ | .destroyKey pool _ => pool

def isConnect : Call → Bool
  | .connect _ => true
  | _ => false

def isRequest : Call → Bool
  | .connect _ | .release _ => false
  | _ => true

/-- One pool is used, and a client is asked for when there is none and used when there
is one. -/
def Disciplined (pool : ConnPool) (h : List Exchange) (call : Call) : Prop :=
  poolOf call = pool ∧ holding h = !isConnect call

theorem opens_disciplined (pool : ConnPool) :
    Opens (Disciplined pool) (holding · = false) (holding · = true) pool where
  connect _ hheld := ⟨rfl, hheld⟩
  connected _ _ := holding_append ⟨.connect pool, .ok ()⟩
  refused _ err hheld := (holding_append ⟨.connect pool, .error err⟩).trans hheld
  release _ hheld := ⟨rfl, hheld⟩
  released _ _ := holding_append ⟨.release pool, ()⟩

theorem request_of_asks {operation : ApiCall} {call : Call} (h : Asks operation call) :
    poolOf call = operation.connPool ∧ isRequest call = true := by
  cases h <;> exact ⟨rfl, rfl⟩

theorem permitted_of_request {pool : ConnPool} {call : Call} (hpool : poolOf call = pool)
    (hcall : isRequest call = true) : Permitted (Disciplined pool) (holding · = true) call := by
  intro h hheld
  refine ⟨⟨hpool, ?_⟩, fun reply => ?_⟩
  · rw [hheld]
    cases call <;> first | rfl | exact Bool.noConfusion hcall
  · change holding (h ++ [⟨call, reply⟩]) = true
    rw [holding_append, hheld]
    cases call <;> first | rfl | exact Bool.noConfusion hcall

def pooling (crates : Crates) : Protocol (api crates) where
  allowed operation := Disciplined operation.connPool
  post _ _ h := holding h = false

theorem pooling_governs (crates : Crates) : (pooling crates).Governs := by
  intro operation
  refine preserves_program crates (opens_disciplined operation.connPool) ?_ [] rfl
  intro call hcall
  obtain ⟨hpool, hrequest⟩ := request_of_asks hcall
  exact permitted_of_request hpool hrequest

/-- How many connections each pool has left. -/
abbrev Pools := ConnPool → Nat

/-- A pool hands out a connection if it has one left; to ask for one can also fail.
Requests may be answered in any way. -/
inductive PoolStep (free : Pools) : (call : Call) → Reply call → Pools → Prop
  | connected (pool : ConnPool) (left : 0 < free pool) :
      PoolStep free (.connect pool) (.ok ()) (Function.update free pool (free pool - 1))
  | failed (pool : ConnPool) (err : KmipConnError) :
      PoolStep free (.connect pool) (.error err) free
  | released (pool : ConnPool) :
      PoolStep free (.release pool) () (Function.update free pool (free pool + 1))
  | answered {call : Call} (hcall : isRequest call = true) (reply : Reply call) :
      PoolStep free call reply free

variable {crates : Crates} {ι : Type} [Fintype ι] [DecidableEq ι]

/-- How many connections of a pool a caller has. -/
def inUse (pool : ConnPool) : Option (ApiCall × List Exchange) → Nat
  | some (operation, h) => if operation.connPool = pool then (holding h).toNat else 0
  | none => 0

@[simp] theorem inUse_none (pool : ConnPool) : inUse pool none = 0 := rfl

theorem inUse_of_idle (pool : ConnPool) {operation : ApiCall} {h : List Exchange}
    (hheld : holding h = false) : inUse pool (some (operation, h)) = 0 := by
  simp [inUse, hheld]

theorem sum_update {α : Type} (f : α → Nat) (views : ι → α) (i : ι) (a : α) :
    ∑ j, f (Function.update views i a j) + f (views i) = ∑ j, f (views j) + f a := by
  have hsum : ∀ views' : ι → α, ∑ j, f (views' j) =
      f (views' i) + ∑ j ∈ Finset.univ.erase i, f (views' j) := by
    intro views'
    exact (Finset.add_sum_erase _ _ (Finset.mem_univ i)).symm
  have hrest : ∑ j ∈ Finset.univ.erase i, f (Function.update views i a j) =
      ∑ j ∈ Finset.univ.erase i, f (views j) := by
    apply Finset.sum_congr rfl
    intro j hj
    rw [Function.update_of_ne (Finset.ne_of_mem_erase hj)]
  rw [hsum, hsum views, hrest, Function.update_self]
  omega

/-- What an exchange does to the connections of its operation it does to the pool. -/
theorem inUse_append {operation : ApiCall} {h : List Exchange} {call : Call} {reply : Reply call}
    {free free' : Pools} (hdisciplined : Disciplined operation.connPool h call)
    (hstep : PoolStep free call reply free') (pool : ConnPool) :
    free' pool + inUse pool (some (operation, h ++ [⟨call, reply⟩])) =
      free pool + inUse pool (some (operation, h)) := by
  obtain ⟨hpool, hheld⟩ := hdisciplined
  simp only [inUse, holding_append, ← hpool, hheld]
  cases hstep with
  | connected pool' left =>
      by_cases h : pool' = pool
      · subst h
        simp [poolOf, isConnect, holdsAfter]
        omega
      · simp [poolOf, h, Ne.symm h]
  | failed pool' err => rfl
  | released pool' =>
      by_cases h : pool' = pool
      · subst h
        simp [poolOf, isConnect, holdsAfter]
      · simp [poolOf, h, Ne.symm h]
  | answered hcall reply =>
      cases call <;> first | rfl | exact Bool.noConfusion hcall

/-- Every connection is in its pool or with one of the callers. -/
theorem connections_accounted {capacity free : Pools} {t : List (Label (api crates) ι)}
    {views : ι → View (api crates)}
    (hrun : (pooling crates).Permits PoolStep capacity t views free) (pool : ConnPool) :
    free pool + ∑ i, inUse pool (views i) = capacity pool := by
  induction hrun with
  | start => simp
  | @call t views free i run operation idle ih =>
      have hsum := sum_update (inUse pool) views i (some (operation, []))
      rw [idle, inUse_none, inUse_of_idle pool rfl] at hsum
      omega
  | @exchange t views free i operation h call reply free' run busy allowed step ih =>
      have hsum := sum_update (inUse pool) views i (some (operation, h ++ [⟨call, reply⟩]))
      have hsame := inUse_append allowed step pool
      rw [busy] at hsum
      omega
  | @finish t views free i operation h a run busy post ih =>
      have hsum := sum_update (inUse pool) views i none
      rw [busy, inUse_none, inUse_of_idle pool post] at hsum
      omega

variable {capacity : Pools} {t : List (Label (api crates) ι)} {sys : System (api crates) ι Pools}

theorem connections_accounted_of_runs (hrun : Runs PoolStep capacity t sys) (pool : ConnPool) :
    sys.state pool + ∑ i, inUse pool (sys.views i) = capacity pool :=
  connections_accounted (hrun.permits (pooling_governs crates)) pool

/-- A caller that waits for a connection has none, so that where all of them wait all
connections are left. -/
theorem exists_advances (hcapacity : ∀ pool, 0 < capacity pool)
    (answer : (call : Call) → Reply call)
    (hanswer : ∀ pool, answer (.connect pool) = .ok ()) (hrun : Runs PoolStep capacity t sys)
    (hbusy : ∃ i, sys.callers i ≠ none) :
    ∃ i r, sys.callers i = some r ∧
      Advances PoolStep (fun e => e.reply = answer e.call) sys.state r.rest := by
  by_contra hstuck
  push Not at hstuck
  have hwaits : ∀ i r, sys.callers i = some r → ∃ pool next,
      r.rest = .call (.connect pool) next ∧ sys.state pool = 0 := by
    rintro i ⟨operation, h, rest⟩ hi
    have hrest := hstuck i _ hi
    cases rest with
    | done a => exact (hrest (.done a)).elim
    | call c next =>
        cases hc : isRequest c with
        | true => exact (hrest (.call (.answered hc (answer c)) rfl)).elim
        | false =>
            cases c with
            | connect pool =>
                refine ⟨pool, next, rfl, ?_⟩
                by_contra hleft
                exact hrest (.call (.connected pool (Nat.pos_of_ne_zero hleft)) (hanswer pool).symm)
            | release pool => exact (hrest (.call (.released pool) rfl)).elim
            | _ => exact Bool.noConfusion hc
  have hnone : ∀ pool i, inUse pool (sys.views i) = 0 := by
    intro pool i
    cases hi : sys.callers i with
    | none => simp [System.views, hi]
    | some r =>
        obtain ⟨pool', next, hrest, _⟩ := hwaits i r hi
        have hmeets := hrun.meets (pooling_governs crates) hi
        rw [hrest] at hmeets
        simpa [System.views, hi, Running.view] using inUse_of_idle pool hmeets.1.2
  obtain ⟨i, hi⟩ := hbusy
  obtain ⟨r, hr⟩ := Option.ne_none_iff_exists'.mp hi
  obtain ⟨pool, next, _, hleft⟩ := hwaits i r hr
  have haccounted := connections_accounted_of_runs hrun pool
  rw [Finset.sum_eq_zero fun j _ => hnone pool j, hleft] at haccounted
  exact absurd haccounted (hcapacity pool).ne

/-- Whatever the callers have called, all of it can return without a connection being
refused, even with one connection in each pool, and then every connection is back. -/
theorem callers_complete (hcapacity : ∀ pool, 0 < capacity pool)
    (answer : (call : Call) → Reply call) (hanswer : ∀ pool, answer (.connect pool) = .ok ())
    (hrun : Runs PoolStep capacity t sys) :
    (∀ pool, sys.state pool + ∑ i, inUse pool (sys.views i) = capacity pool) ∧
      ∃ t' sys', Runs PoolStep capacity (t ++ t') sys' ∧
        (∀ l ∈ t', l.Completes fun e => e.reply = answer e.call) ∧
        (∀ i, sys'.callers i = none) ∧ sys'.state = capacity := by
  refine ⟨connections_accounted_of_runs hrun, ?_⟩
  obtain ⟨t', sys', hrun', ht', hidle⟩ :=
    hrun.completes fun _ _ hrun => exists_advances hcapacity answer hanswer hrun
  refine ⟨t', sys', hrun', ht', hidle, funext fun pool => ?_⟩
  rw [← connections_accounted_of_runs hrun' pool]
  simp [System.views, hidle]

/-- Two callers and one connection, which one of them has. -/
def contention : List (Label (api sampleCrates) Bool) :=
  [.called true (.destroy "private" samplePool),
    .called false (.destroy "public" samplePool),
    .exchanged true (.destroy "private" samplePool) ⟨.connect samplePool, .ok ()⟩]

theorem contention_completes : ∃ sys, Runs PoolStep (fun _ => 1) contention sys ∧
    sys.state samplePool = 0 ∧
    ∃ t' sys', Runs PoolStep (fun _ => 1) (contention ++ t') sys' ∧
      (∀ i, sys'.callers i = none) ∧ sys'.state = fun _ => 1 := by
  have hstart : Runs PoolStep (fun _ => 1) ([] : List (Label (api sampleCrates) Bool)) _ := .start
  have hfirst := hstart.call (i := true) (.destroy "private" samplePool) rfl
  have hsecond := hfirst.call (i := false) (.destroy "public" samplePool) rfl
  have hrun : Runs PoolStep (fun _ => 1) contention _ :=
    hsecond.exchange (i := true) rfl (.connected samplePool Nat.one_pos)
  obtain ⟨_, t', sys', hrun', _, hidle, hstate⟩ :=
    callers_complete (fun _ => Nat.one_pos) willingReplies (fun _ => rfl) hrun
  exact ⟨_, hrun, by simp, t', sys', hrun', hidle, hstate⟩

end DomainKmip.ConnectionPools
