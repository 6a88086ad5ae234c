import Mathlib
import ERpc.Lib.Reach
import ERpc.Model.NexusHooks

/-!
# Registration on a Nexus, across threads

The application registers request handlers, Rpcs are created and destroyed on their own threads,
and the session-management thread routes packets, all on one Nexus and in any interleaving. Each
statement that touches the Nexus is a step of the thread that runs it:

- `register_req_func` runs on the application's one thread: its test of
  `req_func_registration_allowed_`, then the rest, which reads and writes the entry of its request
  type (no other thread writes the table).
- An Rpc's thread copies the handler table (the member initializer `req_func_arr_`), makes the
  `rt_assert`s on its ID, the second through `rpc_id_exists`, makes the `assert`s of
  `register_hook`, and runs the body of `register_hook` under `reg_hooks_lock_`. Its destructor
  makes the `assert`s of `unregister_hook` and runs its body under the lock. The constructor's
  other work touches nothing of the Nexus and is left out, and so is its ways to throw after the
  checks. An Rpc's ID is fixed by the application (`rpcId`).
- The session-management thread looks up the packet's hook and pushes the packet on it under the
  lock, one step.

What the lock guards is one step; what it does not guard (the flag, the table, the `assert`s'
reads) is read in steps of its own. The copy of the table is one step: a copy torn by the write
of one entry is finer than the model. A failed `assert` sets `fault`, and the thread goes on as in
a build without them.

Hooks only ever name live Rpcs of their ID, so the management thread never pushes on the queue of
a destroyed Rpc (`registry_hooks_name_live_rpcs`), while a target ID past the array is read past
it, and with distinct IDs every live Rpc has its
hook (`registry_hooks_exact`). Handlers are consistent: every Rpc's copy agrees with the
Nexus's table, which the background threads read, and a background handler exists only with
background threads (`registry_handler_tables_agree`); once an Rpc is registered, no call that
starts afterwards changes the table (`registry_closes_after_first_hook`). The checks are not
atomic with what they guard: a call that has passed its test completes after an Rpc has copied
the table and registered, and that Rpc never has the handler (`registry_late_handler_missed`);
two Rpcs of one ID both pass `rpc_id_exists`, and one is left without a hook
(`registry_duplicate_rpc_id_loses_hook`).
-/

namespace ERpc

open Transition

/-- Where the thread of an Rpc is in its constructor and destructor. -/
inductive RpcPc
  | start
  | copied
  | checked
  | hookChecked
  | alive
  | unhookChecked
  | destroyed
  | failed
  deriving DecidableEq, Repr

namespace RpcPc

/-- The hook of the Rpc is registered. -/
def registered : RpcPc → Bool
  | .alive | .unhookChecked => true
  | _ => false

/-- The Rpc has registered its hook, and may have removed it since. -/
def hooked : RpcPc → Bool
  | .alive | .unhookChecked | .destroyed => true
  | _ => false

/-- The Rpc has passed the checks on its ID. -/
def checkedId : RpcPc → Bool
  | .start | .copied | .failed => false
  | _ => true

end RpcPc

/-- The statement the application runs next in its call of `register_req_func`. -/
inductive RegPc
  | check (reqType : UInt8) (hasFunc : Bool) (reqFuncType : ReqFuncType)
  | body (reqType : UInt8) (hasFunc : Bool) (reqFuncType : ReqFuncType)
  deriving DecidableEq, Repr

/-- What happens next: the application calls `register_req_func`, the application runs its next
statement, the thread of Rpc `r` runs its next statement, or the management thread handles `p`. -/
inductive RegAct (ρ : Type)
  | call (reqType : UInt8) (hasFunc : Bool) (reqFuncType : ReqFuncType)
  | app
  | rpc (r : ρ)
  | smRx (p : SmPkt)
  deriving DecidableEq, Repr

/-- The Nexus, the application's call in progress, each Rpc's place and copy of the handler
table, and what has happened so far: the return values of the calls, the packets pushed on the
hooks with the Rpc each went to, whether an `assert` failed, and whether the management thread
read past `reg_hooks_arr_`. -/
structure RegSys (ρ : Type) where
  n : NexusReg ρ
  app : Option RegPc
  pc : ρ → RpcPc
  copy : ρ → ℕ → Option ReqFuncType
  rets : List (UInt8 × ℤ)
  delivered : List (ρ × SmPkt)
  fault : Bool
  oobRead : Bool

namespace RegSys

variable {ρ : Type} [DecidableEq ρ] (rpcId : ρ → UInt8)

/-- A new Nexus with `numBgThreads` background threads, before any call and any Rpc. -/
def init (numBgThreads : ℕ) : RegSys ρ :=
  ⟨.init numBgThreads, none, fun _ => .start, fun _ _ => none, [], [], false, false⟩

/-- The application's next statement of `register_req_func`. -/
def appStep (s : RegSys ρ) : Option (RegSys ρ) :=
  match s.app with
  | none => none
  | some (.check t f ft) =>
    if !s.n.reqFuncRegistrationAllowed then
      some { s with app := none, rets := s.rets ++ [(t, -EPERM)] }
    else some { s with app := some (.body t f ft) }
  | some (.body t f ft) =>
    some { s with n := (s.n.registerReqFuncBody t f ft).1, app := none
                  rets := s.rets ++ [(t, (s.n.registerReqFuncBody t f ft).2)] }

/-- The next statement of the thread of Rpc `r`. -/
def rpcStep (s : RegSys ρ) (r : ρ) : Option (RegSys ρ) :=
  match s.pc r with
  | .start =>
    some { s with pc := Function.update s.pc r .copied
                  copy := Function.update s.copy r s.n.reqFuncArr }
  | .copied =>
    if (rpcId r).toNat = kInvalidRpcId ∨ s.n.rpcIdExists (rpcId r) then
      some { s with pc := Function.update s.pc r .failed }
    else some { s with pc := Function.update s.pc r .checked }
  | .checked =>
    some { s with pc := Function.update s.pc r .hookChecked
                  fault := s.fault || !s.n.registerHookOk (rpcId r) }
  | .hookChecked =>
    some { s with n := s.n.registerHook r (rpcId r), pc := Function.update s.pc r .alive }
  | .alive =>
    some { s with pc := Function.update s.pc r .unhookChecked
                  fault := s.fault || !s.n.unregisterHookOk r (rpcId r) }
  | .unhookChecked =>
    some { s with n := s.n.unregisterHook (rpcId r), pc := Function.update s.pc r .destroyed }
  | .destroyed | .failed => none

/-- A pass of the loop of `sm_thread_func` on `p`. For a target ID past the array
(`sm_thread_mishandles_packets`) the lookup reads the word after `reg_hooks_arr_` and pushes on it
when it is not null: undefined behaviour, which the step records in `oobRead`. -/
def smStep (s : RegSys ρ) (p : SmPkt) : Option (RegSys ρ) :=
  match smThreadFunc s.n.hookView p with
  | some (.push k q) =>
    (s.n.regHooksArr k).map fun r => { s with delivered := s.delivered ++ [(r, q)] }
  | some _ => some s
  | none => some { s with oobRead := true }

/-- One step of the system. -/
def step (s : RegSys ρ) : RegAct ρ → Option (RegSys ρ)
  | .call t f ft => if s.app.isNone then some { s with app := some (.check t f ft) } else none
  | .app => s.appStep
  | .rpc r => s.rpcStep rpcId r
  | .smRx p => s.smStep p

section Cases

variable {rpcId} {s t : RegSys ρ} {r : ρ}

/-- What a statement of Rpc `r` does, by where its thread is. -/
theorem rpcStep_cases (h : s.rpcStep rpcId r = some t) :
    (s.pc r = .start ∧ t = { s with pc := Function.update s.pc r .copied
                                    copy := Function.update s.copy r s.n.reqFuncArr }) ∨
    (s.pc r = .copied ∧ ((rpcId r).toNat = kInvalidRpcId ∨ s.n.rpcIdExists (rpcId r)) ∧
      t = { s with pc := Function.update s.pc r .failed }) ∨
    (s.pc r = .copied ∧ ¬((rpcId r).toNat = kInvalidRpcId ∨ s.n.rpcIdExists (rpcId r)) ∧
      t = { s with pc := Function.update s.pc r .checked }) ∨
    (s.pc r = .checked ∧ t = { s with pc := Function.update s.pc r .hookChecked
                                      fault := s.fault || !s.n.registerHookOk (rpcId r) }) ∨
    (s.pc r = .hookChecked ∧
      t = { s with n := s.n.registerHook r (rpcId r), pc := Function.update s.pc r .alive }) ∨
    (s.pc r = .alive ∧ t = { s with pc := Function.update s.pc r .unhookChecked
                                    fault := s.fault || !s.n.unregisterHookOk r (rpcId r) }) ∨
    (s.pc r = .unhookChecked ∧
      t = { s with n := s.n.unregisterHook (rpcId r)
                   pc := Function.update s.pc r .destroyed }) := by
  unfold RegSys.rpcStep at h
  cases hpc : s.pc r <;> rw [hpc] at h
  case start => exact .inl ⟨rfl, (Option.some.inj h).symm⟩
  case copied =>
    split_ifs at h with hc
    · exact .inr (.inl ⟨rfl, hc, (Option.some.inj h).symm⟩)
    · exact .inr (.inr (.inl ⟨rfl, hc, (Option.some.inj h).symm⟩))
  case checked => exact .inr (.inr (.inr (.inl ⟨rfl, (Option.some.inj h).symm⟩)))
  case hookChecked => exact .inr (.inr (.inr (.inr (.inl ⟨rfl, (Option.some.inj h).symm⟩))))
  case alive => exact .inr (.inr (.inr (.inr (.inr (.inl ⟨rfl, (Option.some.inj h).symm⟩)))))
  case unhookChecked =>
    exact .inr (.inr (.inr (.inr (.inr (.inr ⟨rfl, (Option.some.inj h).symm⟩)))))
  case destroyed => simp at h
  case failed => simp at h

omit [DecidableEq ρ] in
/-- What a statement of the application does: the test of the flag returns `-EPERM` or goes on,
and the rest of the call updates the Nexus as `registerReqFuncBody` does. -/
theorem appStep_cases (h : s.appStep = some t) :
    (∃ tp f ft, s.app = some (.check tp f ft) ∧ s.n.reqFuncRegistrationAllowed = false ∧
      t = { s with app := none, rets := s.rets ++ [(tp, -EPERM)] }) ∨
    (∃ tp f ft, s.app = some (.check tp f ft) ∧ s.n.reqFuncRegistrationAllowed = true ∧
      t = { s with app := some (.body tp f ft) }) ∨
    (∃ tp f ft, s.app = some (.body tp f ft) ∧
      t = { s with n := (s.n.registerReqFuncBody tp f ft).1, app := none
                   rets := s.rets ++ [(tp, (s.n.registerReqFuncBody tp f ft).2)] }) := by
  unfold RegSys.appStep at h
  rcases happ : s.app with _ | ⟨tp, f, ft⟩ | ⟨tp, f, ft⟩ <;> rw [happ] at h
  · simp at h
  · split_ifs at h with hal
    · exact .inl ⟨tp, f, ft, rfl, by simpa using hal, (Option.some.inj h).symm⟩
    · exact .inr (.inl ⟨tp, f, ft, rfl, by simpa using hal, (Option.some.inj h).symm⟩)
  · exact .inr (.inr ⟨tp, f, ft, rfl, (Option.some.inj h).symm⟩)

omit [DecidableEq ρ] in
/-- A pass of the management thread changes nothing, reads past the hooks for a target ID past
the array, or pushes the packet on the hook of the Rpc it names. -/
theorem smStep_cases {p : SmPkt} (h : s.smStep p = some t) :
    t = s ∨ (kMaxRpcId < p.targetRpcId ∧ t = { s with oobRead := true }) ∨
      ∃ r, s.n.regHooksArr p.targetRpcId = some r ∧
        t = { s with delivered := s.delivered ++ [(r, p)] } := by
  unfold RegSys.smStep at h
  split at h
  · rename_i k q hpush
    obtain ⟨rfl, rfl⟩ := smThreadFunc_eq_push hpush
    obtain ⟨r, hr, rfl⟩ := Option.map_eq_some_iff.1 h
    exact .inr (.inr ⟨r, hr, rfl⟩)
  · exact .inl (Option.some.inj h).symm
  · rename_i hnone
    exact .inr (.inl ⟨(smThreadFunc_eq_none_iff.1 hnone).2, (Option.some.inj h).symm⟩)

theorem step_call {tp : UInt8} {f : Bool} {ft : ReqFuncType}
    (h : step rpcId s (.call tp f ft) = some t) :
    s.app = none ∧ t = { s with app := some (.check tp f ft) } := by
  simp only [RegSys.step] at h
  split_ifs at h with hn
  exact ⟨Option.isNone_iff_eq_none.1 hn, (Option.some.inj h).symm⟩

/-- Run back to back, the statements of a call of `register_req_func` do what the whole function
does. -/
theorem run_call_uninterrupted (h : s.app = none) (tp : UInt8) (f : Bool) (ft : ReqFuncType) :
    run (step rpcId) s
        (.call tp f ft :: .app :: if s.n.reqFuncRegistrationAllowed then [.app] else []) =
      some { s with n := (s.n.registerReqFunc tp f ft).1
                    rets := s.rets ++ [(tp, (s.n.registerReqFunc tp f ft).2)] } := by
  cases hal : s.n.reqFuncRegistrationAllowed <;>
    simp [run_cons, RegSys.step, RegSys.appStep, NexusReg.registerReqFunc, h, hal]

end Cases

/-- What holds in every reachable state: a hook names a live Rpc of its ID; a background handler
exists only with background threads; each Rpc's copy of the handler table is part of the
Nexus's; an Rpc that has registered its hook has closed registration; and the number of
background threads is the Nexus's. -/
structure Inv (nbg : ℕ) (s : RegSys ρ) : Prop where
  hooks : ∀ k r, s.n.regHooksArr k = some r → (rpcId r).toNat = k ∧ (s.pc r).registered
  bg : ∀ t, s.n.reqFuncArr t = some .kBackground → 0 < s.n.numBgThreads
  copy : ∀ r t ft, s.copy r t = some ft → s.n.reqFuncArr t = some ft
  closed : ∀ r, (s.pc r).hooked → s.n.reqFuncRegistrationAllowed = false
  nbg : s.n.numBgThreads = nbg

/-- With distinct IDs, what holds besides `Inv`: each registered Rpc is the hook of its ID, an
Rpc past its checks has a valid ID, and no `assert` has failed. -/
structure ExactInv (s : RegSys ρ) : Prop where
  own : ∀ r, (s.pc r).registered → s.n.regHooksArr (rpcId r).toNat = some r
  valid : ∀ r, (s.pc r).checkedId → (rpcId r).toNat ≠ kInvalidRpcId
  fault : s.fault = false

section Steps

variable {rpcId} {nbg : ℕ} {s t : RegSys ρ} {r : ρ}

omit [DecidableEq ρ] in
theorem Inv.init : Inv rpcId nbg (init nbg : RegSys ρ) where
  hooks _ _ h := by simp [RegSys.init, NexusReg.init] at h
  bg _ h := by simp [RegSys.init, NexusReg.init] at h
  copy _ _ _ h := by simp [RegSys.init] at h
  closed _ h := by simp [RegSys.init, RpcPc.hooked] at h
  nbg := rfl

theorem Inv.setPc (hi : Inv rpcId nbg s) {p : RpcPc} {b : Bool}
    (hreg : (s.pc r).registered → p.registered) (hhook : p.hooked → (s.pc r).hooked) :
    Inv rpcId nbg { s with pc := Function.update s.pc r p, fault := b } where
  hooks k r' h := by
    obtain ⟨hk, hr'⟩ := hi.hooks k r' h
    refine ⟨hk, ?_⟩
    by_cases he : r' = r
    · subst he
      simpa using hreg hr'
    · simpa [Function.update_of_ne he] using hr'
  bg := hi.bg
  copy := hi.copy
  closed r' h := by
    by_cases he : r' = r
    · subst he
      exact hi.closed r' (hhook (by simpa using h))
    · exact hi.closed r' (by simpa [Function.update_of_ne he] using h)
  nbg := hi.nbg

theorem Inv.copyTable (hi : Inv rpcId nbg s) (hpc : s.pc r = .start) :
    Inv rpcId nbg { s with pc := Function.update s.pc r .copied
                           copy := Function.update s.copy r s.n.reqFuncArr } where
  hooks k r' h := by
    obtain ⟨hk, hr'⟩ := hi.hooks k r' h
    refine ⟨hk, ?_⟩
    have he : r' ≠ r := fun e => by simp [e, hpc, RpcPc.registered] at hr'
    simpa [Function.update_of_ne he] using hr'
  bg := hi.bg
  copy r' t ft h := by
    by_cases he : r' = r
    · subst he
      simpa using h
    · exact hi.copy r' t ft (by simpa [Function.update_of_ne he] using h)
  closed r' h := by
    have he : r' ≠ r := fun e => by simp [e, RpcPc.hooked] at h
    exact hi.closed r' (by simpa [Function.update_of_ne he] using h)
  nbg := hi.nbg

omit [DecidableEq ρ] in
theorem Inv.hooks_ne (hi : Inv rpcId nbg s) {k : ℕ} (hk : k ≠ (rpcId r).toNat) :
    s.n.regHooksArr k ≠ some r := fun h => hk (hi.hooks k r h).1.symm

theorem Inv.registerHook (hi : Inv rpcId nbg s) :
    Inv rpcId nbg { s with n := s.n.registerHook r (rpcId r)
                           pc := Function.update s.pc r .alive } where
  hooks k r' h := by
    by_cases hk : k = (rpcId r).toNat
    · subst hk
      simp only [NexusReg.registerHook, Function.update_self, Option.some.injEq] at h
      subst h
      simp [RpcPc.registered]
    · simp only [NexusReg.registerHook, Function.update_of_ne hk] at h
      obtain ⟨hk', hr'⟩ := hi.hooks k r' h
      have he : r' ≠ r := fun e => hi.hooks_ne hk (e ▸ h)
      exact ⟨hk', by simpa [Function.update_of_ne he] using hr'⟩
  bg := hi.bg
  copy := hi.copy
  closed _ _ := rfl
  nbg := hi.nbg

theorem Inv.unregisterHook (hi : Inv rpcId nbg s) (hpc : s.pc r = .unhookChecked) :
    Inv rpcId nbg { s with n := s.n.unregisterHook (rpcId r)
                           pc := Function.update s.pc r .destroyed } where
  hooks k r' h := by
    by_cases hk : k = (rpcId r).toNat
    · subst hk
      simp [NexusReg.unregisterHook] at h
    · simp only [NexusReg.unregisterHook, Function.update_of_ne hk] at h
      obtain ⟨hk', hr'⟩ := hi.hooks k r' h
      have he : r' ≠ r := fun e => hi.hooks_ne hk (e ▸ h)
      exact ⟨hk', by simpa [Function.update_of_ne he] using hr'⟩
  bg := hi.bg
  copy := hi.copy
  closed r' h := by
    have hclosed := hi.closed r (by simp [hpc, RpcPc.hooked])
    simpa using hclosed
  nbg := hi.nbg

theorem Inv.rpcStep (hi : Inv rpcId nbg s) (h : s.rpcStep rpcId r = some t) : Inv rpcId nbg t := by
  rcases rpcStep_cases h with ⟨hpc, rfl⟩ | ⟨hpc, -, rfl⟩ | ⟨hpc, -, rfl⟩ | ⟨hpc, rfl⟩ | ⟨-, rfl⟩ |
    ⟨hpc, rfl⟩ | ⟨hpc, rfl⟩
  · exact hi.copyTable hpc
  · exact hi.setPc (b := s.fault) (by simp [hpc, RpcPc.registered]) (by simp [RpcPc.hooked])
  · exact hi.setPc (b := s.fault) (by simp [hpc, RpcPc.registered]) (by simp [RpcPc.hooked])
  · exact hi.setPc (by simp [hpc, RpcPc.registered]) (by simp [RpcPc.hooked])
  · exact hi.registerHook
  · exact hi.setPc (by simp [RpcPc.registered]) (by simp [hpc, RpcPc.hooked])
  · exact hi.unregisterHook hpc

omit [DecidableEq ρ] in
theorem Inv.appStep (hi : Inv rpcId nbg s) (h : s.appStep = some t) : Inv rpcId nbg t := by
  rcases appStep_cases h with ⟨tp, f, ft, -, -, rfl⟩ | ⟨tp, f, ft, -, -, rfl⟩ | ⟨tp, f, ft, -, rfl⟩
  · exact ⟨hi.hooks, hi.bg, hi.copy, hi.closed, hi.nbg⟩
  · exact ⟨hi.hooks, hi.bg, hi.copy, hi.closed, hi.nbg⟩
  · rcases NexusReg.registerReqFuncBody_cases s.n tp f ft with ⟨h1, -⟩ | ⟨hfree, -, hbg, h1, -⟩
    · rw [h1]
      exact ⟨hi.hooks, hi.bg, hi.copy, hi.closed, hi.nbg⟩
    · refine ⟨by simpa using hi.hooks, fun t ht => ?_, fun r' t' ft' hc => ?_,
        fun r' hr' => by simpa using hi.closed r' hr', by simpa using hi.nbg⟩
      · rw [NexusReg.registerReqFuncBody_numBgThreads]
        rw [h1] at ht
        by_cases htp : t = tp.toNat
        · subst htp
          simp only [Function.update_self, Option.some.injEq] at ht
          exact hbg ht
        · exact hi.bg t (by simpa [Function.update_of_ne htp] using ht)
      · exact NexusReg.registerReqFuncBody_reqFuncArr_of_some (hi.copy r' t' ft' hc)

omit [DecidableEq ρ] in
theorem Inv.smStep (hi : Inv rpcId nbg s) {p : SmPkt} (h : s.smStep p = some t) :
    Inv rpcId nbg t := by
  rcases smStep_cases h with rfl | ⟨-, rfl⟩ | ⟨r', -, rfl⟩
  · exact hi
  · exact ⟨hi.hooks, hi.bg, hi.copy, hi.closed, hi.nbg⟩
  · exact ⟨hi.hooks, hi.bg, hi.copy, hi.closed, hi.nbg⟩

theorem Inv.step (hi : Inv rpcId nbg s) {a : RegAct ρ} (h : step rpcId s a = some t) :
    Inv rpcId nbg t := by
  cases a with
  | call tp f ft =>
    obtain ⟨-, rfl⟩ := step_call h
    exact ⟨hi.hooks, hi.bg, hi.copy, hi.closed, hi.nbg⟩
  | app => exact hi.appStep h
  | rpc r => exact hi.rpcStep h
  | smRx p => exact hi.smStep h

theorem inv_of_reachable (hr : Reachable (step rpcId) (init nbg) s) : Inv rpcId nbg s :=
  Reachable.induct (Inv rpcId nbg) Inv.init (fun _ _ _ _ hi h => hi.step h) hr

end Steps

section Exact

variable {rpcId} {nbg : ℕ} {s t : RegSys ρ} {r : ρ}

omit [DecidableEq ρ] in
theorem ExactInv.init : ExactInv rpcId (init nbg : RegSys ρ) where
  own _ h := by simp [RegSys.init, RpcPc.registered] at h
  valid _ h := by simp [RegSys.init, RpcPc.checkedId] at h
  fault := rfl

omit [DecidableEq ρ] in
theorem ExactInv.le_max (he : ExactInv rpcId s) (h : (s.pc r).checkedId) :
    (rpcId r).toNat ≤ kMaxRpcId := by
  have h1 := he.valid r h
  have h2 := UInt8.toNat_lt (rpcId r)
  simp only [kInvalidRpcId, kMaxRpcId] at h1 ⊢
  omega

omit [DecidableEq ρ] in
theorem ExactInv.of_eq (he : ExactInv rpcId s) (hn : t.n.regHooksArr = s.n.regHooksArr)
    (hpc : t.pc = s.pc) (hf : t.fault = s.fault) : ExactInv rpcId t where
  own r h := by
    rw [hn]
    exact he.own r (hpc ▸ h)
  valid r h := he.valid r (hpc ▸ h)
  fault := hf.trans he.fault

theorem ExactInv.setPc (he : ExactInv rpcId s) {p : RpcPc} (hn : t.n.regHooksArr = s.n.regHooksArr)
    (hpc : t.pc = Function.update s.pc r p) (hf : t.fault = false)
    (hreg : p.registered → (s.pc r).registered)
    (hval : p.checkedId → (rpcId r).toNat ≠ kInvalidRpcId) : ExactInv rpcId t where
  own r' h := by
    rw [hn]
    by_cases hr : r' = r
    · subst hr
      rw [hpc, Function.update_self] at h
      exact he.own r' (hreg h)
    · rw [hpc, Function.update_of_ne hr] at h
      exact he.own r' h
  valid r' h := by
    by_cases hr : r' = r
    · subst hr
      rw [hpc, Function.update_self] at h
      exact hval h
    · rw [hpc, Function.update_of_ne hr] at h
      exact he.valid r' h
  fault := hf

section Injective

variable (hinj : Function.Injective rpcId)
include hinj

omit [DecidableEq ρ] in
theorem eq_of_toNat_eq {r' : ρ} (h : (rpcId r').toNat = (rpcId r).toNat) : r' = r :=
  hinj (UInt8.toNat_inj.1 h)

omit [DecidableEq ρ] in
theorem Inv.free_of_not_registered (hi : Inv rpcId nbg s) (hreg : (s.pc r).registered = false) :
    s.n.regHooksArr (rpcId r).toNat = none := by
  rcases hk : s.n.regHooksArr (rpcId r).toNat with _ | r'
  · rfl
  · obtain ⟨hid, hr'⟩ := hi.hooks _ r' hk
    rw [eq_of_toNat_eq hinj hid] at hr'
    simp [hreg] at hr'

theorem ExactInv.rpcStep (hi : Inv rpcId nbg s) (he : ExactInv rpcId s)
    (h : s.rpcStep rpcId r = some t) : ExactInv rpcId t := by
  rcases rpcStep_cases h with ⟨hpc, rfl⟩ | ⟨hpc, -, rfl⟩ | ⟨hpc, hc, rfl⟩ | ⟨hpc, rfl⟩ |
    ⟨hpc, rfl⟩ | ⟨hpc, rfl⟩ | ⟨hpc, rfl⟩
  · exact he.setPc rfl rfl he.fault (by simp [RpcPc.registered]) (by simp [RpcPc.checkedId])
  · exact he.setPc rfl rfl he.fault (by simp [RpcPc.registered]) (by simp [RpcPc.checkedId])
  · exact he.setPc rfl rfl he.fault (by simp [RpcPc.registered]) fun _ hid => hc (.inl hid)
  · have hfree := hi.free_of_not_registered hinj (r := r) (by simp [hpc, RpcPc.registered])
    have hok : s.n.registerHookOk (rpcId r) = true := by
      simp [NexusReg.registerHookOk, hfree, he.le_max (r := r) (by simp [hpc, RpcPc.checkedId])]
    exact he.setPc rfl rfl (by simp [hok, he.fault]) (by simp [RpcPc.registered])
      fun _ => he.valid r (by simp [hpc, RpcPc.checkedId])
  · refine ⟨fun r' h' => ?_, fun r' h' => ?_, he.fault⟩
    · by_cases hr : r' = r
      · subst hr
        simp [NexusReg.registerHook]
      · have hne : (rpcId r').toNat ≠ (rpcId r).toNat := fun e => hr (eq_of_toNat_eq hinj e)
        simp only [Function.update_of_ne hr] at h'
        simpa [NexusReg.registerHook, Function.update_of_ne hne] using he.own r' h'
    · by_cases hr : r' = r
      · subst hr
        exact he.valid r' (by simp [hpc, RpcPc.checkedId])
      · exact he.valid r' (by simpa [Function.update_of_ne hr] using h')
  · have hok : s.n.unregisterHookOk r (rpcId r) = true := by
      simp [NexusReg.unregisterHookOk, he.own r (by simp [hpc, RpcPc.registered]),
        he.le_max (r := r) (by simp [hpc, RpcPc.checkedId])]
    exact he.setPc rfl rfl (by simp [hok, he.fault]) (by simp [hpc, RpcPc.registered])
      fun _ => he.valid r (by simp [hpc, RpcPc.checkedId])
  · refine ⟨fun r' h' => ?_, fun r' h' => ?_, he.fault⟩
    · have hr : r' ≠ r := fun e => by simp [e, RpcPc.registered] at h'
      have hne : (rpcId r').toNat ≠ (rpcId r).toNat := fun e => hr (eq_of_toNat_eq hinj e)
      simp only [Function.update_of_ne hr] at h'
      simpa [NexusReg.unregisterHook, Function.update_of_ne hne] using he.own r' h'
    · by_cases hr : r' = r
      · subst hr
        exact he.valid r' (by simp [hpc, RpcPc.checkedId])
      · exact he.valid r' (by simpa [Function.update_of_ne hr] using h')

theorem ExactInv.step (hi : Inv rpcId nbg s) (he : ExactInv rpcId s) {a : RegAct ρ}
    (h : step rpcId s a = some t) : ExactInv rpcId t := by
  cases a with
  | call tp f ft =>
    obtain ⟨-, rfl⟩ := step_call h
    exact he.of_eq rfl rfl rfl
  | app =>
    rcases appStep_cases h with ⟨_, _, _, -, -, rfl⟩ | ⟨_, _, _, -, -, rfl⟩ | ⟨_, _, _, -, rfl⟩
    · exact he.of_eq rfl rfl rfl
    · exact he.of_eq rfl rfl rfl
    · exact he.of_eq (NexusReg.registerReqFuncBody_regHooksArr) rfl rfl
  | rpc r => exact he.rpcStep hinj hi h
  | smRx p =>
    rcases smStep_cases h with rfl | ⟨-, rfl⟩ | ⟨_, -, rfl⟩
    · exact he
    · exact he.of_eq rfl rfl rfl
    · exact he.of_eq rfl rfl rfl

theorem exactInv_of_reachable (hr : Reachable (step rpcId) (init nbg) s) : ExactInv rpcId s :=
  Reachable.induct (ExactInv rpcId) ExactInv.init
    (fun _ _ _ hr' he h => he.step hinj (inv_of_reachable hr') h) hr

end Injective

end Exact

section From

/-! What stays true from a state on, along every run from it. -/

variable {rpcId} {s t : RegSys ρ} {r : ρ} {a : RegAct ρ}

/-- Once taken, an Rpc's copy of the handler table is never written again. -/
theorem step_copy_stable (h : step rpcId s a = some t) (hpc : s.pc r ≠ .start) :
    t.pc r ≠ .start ∧ t.copy r = s.copy r := by
  cases a with
  | call tp f ft =>
    obtain ⟨-, rfl⟩ := step_call h
    exact ⟨hpc, rfl⟩
  | app =>
    rcases appStep_cases h with ⟨_, _, _, -, -, rfl⟩ | ⟨_, _, _, -, -, rfl⟩ | ⟨_, _, _, -, rfl⟩ <;>
      exact ⟨hpc, rfl⟩
  | rpc r' =>
    by_cases hr : r' = r
    · subst hr
      rcases rpcStep_cases h with ⟨h0, -⟩ | ⟨-, -, rfl⟩ | ⟨-, -, rfl⟩ | ⟨-, rfl⟩ | ⟨-, rfl⟩ |
        ⟨-, rfl⟩ | ⟨-, rfl⟩
      · exact absurd h0 hpc
      all_goals simp
    · have hr' : r ≠ r' := Ne.symm hr
      rcases rpcStep_cases h with ⟨-, rfl⟩ | ⟨-, -, rfl⟩ | ⟨-, -, rfl⟩ | ⟨-, rfl⟩ | ⟨-, rfl⟩ |
        ⟨-, rfl⟩ | ⟨-, rfl⟩ <;> simp [Function.update_of_ne hr', hpc]
  | smRx p =>
    rcases smStep_cases h with rfl | ⟨-, rfl⟩ | ⟨_, -, rfl⟩ <;> exact ⟨hpc, rfl⟩

/-- With registration closed and no call past its test, a step leaves the handler table, and a
call it ends returns `-EPERM`. -/
theorem step_closed (h : step rpcId s a = some t) (hal : s.n.reqFuncRegistrationAllowed = false)
    (happ : ∀ tp f ft, s.app ≠ some (.body tp f ft)) :
    t.n.reqFuncRegistrationAllowed = false ∧ (∀ tp f ft, t.app ≠ some (.body tp f ft)) ∧
      t.n.reqFuncArr = s.n.reqFuncArr ∧
        (t.rets = s.rets ∨ ∃ tp, t.rets = s.rets ++ [(tp, -EPERM)]) := by
  cases a with
  | call tp f ft =>
    obtain ⟨-, rfl⟩ := step_call h
    exact ⟨hal, by simp, rfl, .inl rfl⟩
  | app =>
    rcases appStep_cases h with ⟨tp, f, ft, -, -, rfl⟩ | ⟨tp, f, ft, -, hal', -⟩ |
      ⟨tp, f, ft, happ', -⟩
    · exact ⟨hal, by simp, rfl, .inr ⟨tp, rfl⟩⟩
    · simp [hal] at hal'
    · exact absurd happ' (happ tp f ft)
  | rpc r' =>
    rcases rpcStep_cases h with ⟨-, rfl⟩ | ⟨-, -, rfl⟩ | ⟨-, -, rfl⟩ | ⟨-, rfl⟩ | ⟨-, rfl⟩ |
      ⟨-, rfl⟩ | ⟨-, rfl⟩ <;> exact ⟨by simp [hal], happ, rfl, .inl rfl⟩
  | smRx p =>
    rcases smStep_cases h with rfl | ⟨-, rfl⟩ | ⟨_, -, rfl⟩ <;> exact ⟨hal, happ, rfl, .inl rfl⟩

/-- Once an Rpc has registered and the entry of its ID no longer names it, no step makes it name
the Rpc again: only the Rpc's own `register_hook` could. -/
theorem step_hook_lost (h : step rpcId s a = some t) (hpc : (s.pc r).hooked)
    (hk : s.n.regHooksArr (rpcId r).toNat ≠ some r) :
    (t.pc r).hooked ∧ t.n.regHooksArr (rpcId r).toNat ≠ some r := by
  cases a with
  | call tp f ft =>
    obtain ⟨-, rfl⟩ := step_call h
    exact ⟨hpc, hk⟩
  | app =>
    rcases appStep_cases h with ⟨_, _, _, -, -, rfl⟩ | ⟨_, _, _, -, -, rfl⟩ | ⟨_, _, _, -, rfl⟩
    · exact ⟨hpc, hk⟩
    · exact ⟨hpc, hk⟩
    · exact ⟨hpc, by simpa using hk⟩
  | rpc r' =>
    by_cases hr : r' = r
    · subst hr
      rcases rpcStep_cases h with ⟨h0, -⟩ | ⟨h0, -, -⟩ | ⟨h0, -, -⟩ | ⟨h0, -⟩ | ⟨h0, -⟩ |
        ⟨-, rfl⟩ | ⟨-, rfl⟩
      all_goals first
        | simp [h0, RpcPc.hooked] at hpc
        | simp [RpcPc.hooked, NexusReg.unregisterHook, hk]
    · have hr' : r ≠ r' := Ne.symm hr
      rcases rpcStep_cases h with ⟨-, rfl⟩ | ⟨-, -, rfl⟩ | ⟨-, -, rfl⟩ | ⟨-, rfl⟩ | ⟨-, rfl⟩ |
        ⟨-, rfl⟩ | ⟨-, rfl⟩
      all_goals refine ⟨by simpa [Function.update_of_ne hr'] using hpc, ?_⟩
      · exact hk
      · exact hk
      · exact hk
      · exact hk
      · by_cases he : (rpcId r).toNat = (rpcId r').toNat
        · simp [NexusReg.registerHook, he, hr]
        · simpa [NexusReg.registerHook, Function.update_of_ne he] using hk
      · exact hk
      · by_cases he : (rpcId r).toNat = (rpcId r').toNat
        · simp [NexusReg.unregisterHook, he]
        · simpa [NexusReg.unregisterHook, Function.update_of_ne he] using hk
  | smRx p =>
    rcases smStep_cases h with rfl | ⟨-, rfl⟩ | ⟨_, -, rfl⟩ <;> exact ⟨hpc, hk⟩

/-- Along every run from `s`, an Rpc's copy of the handler table stays as it was. -/
theorem copy_stable (hpc : s.pc r ≠ .start) {u : RegSys ρ} (hu : Reachable (step rpcId) s u) :
    u.pc r ≠ .start ∧ u.copy r = s.copy r :=
  Reachable.induct (fun x => x.pc r ≠ .start ∧ x.copy r = s.copy r) ⟨hpc, rfl⟩
    (fun _ _ _ _ hx h => ⟨(step_copy_stable h hx.1).1, (step_copy_stable h hx.1).2.trans hx.2⟩) hu

/-- Along every run from a state with registration closed and no call past its test, the
handler table stays as it is, and every call returns `-EPERM`. -/
theorem closed_stable (hal : s.n.reqFuncRegistrationAllowed = false)
    (happ : ∀ tp f ft, s.app ≠ some (.body tp f ft)) {u : RegSys ρ}
    (hu : Reachable (step rpcId) s u) :
    u.n.reqFuncArr = s.n.reqFuncArr ∧
      ∃ tps : List UInt8, u.rets = s.rets ++ tps.map (·, -EPERM) := by
  let Q : RegSys ρ → Prop := fun x => x.n.reqFuncRegistrationAllowed = false ∧
    (∀ tp f ft, x.app ≠ some (.body tp f ft)) ∧ x.n.reqFuncArr = s.n.reqFuncArr ∧
    ∃ tps : List UInt8, x.rets = s.rets ++ tps.map (·, -EPERM)
  have hQ : Q u := by
    refine Reachable.induct Q ⟨hal, happ, rfl, [], by simp⟩ (fun x a y _ hx h => ?_) hu
    obtain ⟨hal', happ', htab, tps, hrets⟩ := hx
    obtain ⟨h1, h2, h3, h4⟩ := step_closed h hal' happ'
    refine ⟨h1, h2, h3.trans htab, ?_⟩
    rcases h4 with h4 | ⟨tp, h4⟩
    · exact ⟨tps, h4.trans hrets⟩
    · exact ⟨tps ++ [tp], by simp [h4, hrets]⟩
  exact ⟨hQ.2.2.1, hQ.2.2.2⟩

/-- Along every run from a state where an Rpc has registered and the entry of its ID names
another, the entry never names it again. -/
theorem hook_lost_stable (hpc : (s.pc r).hooked) (hk : s.n.regHooksArr (rpcId r).toNat ≠ some r)
    {u : RegSys ρ} (hu : Reachable (step rpcId) s u) :
    u.n.regHooksArr (rpcId r).toNat ≠ some r :=
  (Reachable.induct (fun x => (x.pc r).hooked ∧ x.n.regHooksArr (rpcId r).toNat ≠ some r)
    ⟨hpc, hk⟩ (fun _ _ _ _ hx h => step_hook_lost h hx.1 hx.2) hu).2

end From

section Passes

variable {rpcId} {s : RegSys ρ} {r : ρ}

theorem rpcStep_copied_pass (hpc : s.pc r = .copied) (hid : (rpcId r).toNat ≠ kInvalidRpcId)
    (hfree : s.n.regHooksArr (rpcId r).toNat = none) :
    s.rpcStep rpcId r = some { s with pc := Function.update s.pc r .checked } := by
  simp [RegSys.rpcStep, hpc, hid, NexusReg.rpcIdExists, hfree]

theorem rpcStep_checked_pass (hpc : s.pc r = .checked) (hid : (rpcId r).toNat ≠ kInvalidRpcId)
    (hfree : s.n.regHooksArr (rpcId r).toNat = none) :
    s.rpcStep rpcId r = some { s with pc := Function.update s.pc r .hookChecked } := by
  have hlt := UInt8.toNat_lt (rpcId r)
  have hle : (rpcId r).toNat ≤ kMaxRpcId := by
    simp only [kInvalidRpcId, kMaxRpcId] at hid ⊢
    omega
  simp [RegSys.rpcStep, hpc, NexusReg.registerHookOk, hfree, hle]

theorem rpcStep_hookChecked (hpc : s.pc r = .hookChecked) :
    s.rpcStep rpcId r =
      some { s with n := s.n.registerHook r (rpcId r), pc := Function.update s.pc r .alive } := by
  simp [RegSys.rpcStep, hpc]

end Passes

section Results

variable {rpcId} {nbg : ℕ} {s : RegSys ρ}

/-- A hook only ever names a live Rpc of its ID, registered and not yet unregistered: the lock
makes the management thread's lookup and push one step against `register_hook` and
`unregister_hook`. So the thread pushes a packet only on the queue of a live Rpc, the one its
`target_rpc_id` names, never on that of a destroyed Rpc. -/
theorem registry_hooks_name_live_rpcs (hr : Reachable (step rpcId) (init nbg) s) :
    (∀ k r, s.n.regHooksArr k = some r → (rpcId r).toNat = k ∧ (s.pc r).registered) ∧
    ∀ p t, step rpcId s (.smRx p) = some t → t = s ∨
      (kMaxRpcId < p.targetRpcId ∧ t = { s with oobRead := true }) ∨
      ∃ r, t.delivered = s.delivered ++ [(r, p)] ∧ (rpcId r).toNat = p.targetRpcId ∧
        (s.pc r).registered := by
  have hi := inv_of_reachable hr
  refine ⟨hi.hooks, fun p t h => ?_⟩
  rcases smStep_cases h with rfl | hoob | ⟨r, hk, rfl⟩
  · exact .inl rfl
  · exact .inr (.inl hoob)
  · exact .inr (.inr ⟨r, rfl, hi.hooks _ r hk⟩)

/-- With distinct IDs, the hook of an Rpc's ID is that Rpc exactly while it is registered, so
every live Rpc gets the management packets for its ID, and no `assert` of `register_hook` or
`unregister_hook` fails. -/
theorem registry_hooks_exact (hinj : Function.Injective rpcId)
    (hr : Reachable (step rpcId) (init nbg) s) :
    (∀ r, s.n.regHooksArr (rpcId r).toNat = some r ↔ (s.pc r).registered) ∧ s.fault = false := by
  have hi := inv_of_reachable hr
  have he := exactInv_of_reachable hinj hr
  exact ⟨fun r => ⟨fun h => (hi.hooks _ r h).2, he.own r⟩, he.fault⟩

/-- Every handler an Rpc copied is the Nexus's handler for its type, which the background
threads look up (`ctx.req_func_arr_->at (req_type)`); and a background handler, in the Nexus or
in a copy, exists only with background threads. -/
theorem registry_handler_tables_agree (hr : Reachable (step rpcId) (init nbg) s) :
    (∀ r t ft, s.copy r t = some ft → s.n.reqFuncArr t = some ft) ∧
    ∀ t, (s.n.reqFuncArr t = some .kBackground ∨ ∃ r, s.copy r t = some .kBackground) →
      0 < nbg := by
  have hi := inv_of_reachable hr
  refine ⟨hi.copy, fun t ht => ?_⟩
  rw [← hi.nbg]
  rcases ht with ht | ⟨r, hc⟩
  · exact hi.bg t ht
  · exact hi.bg t (hi.copy r t _ hc)

/-- Once an Rpc has registered its hook and no call of `register_req_func` is past its test, the
handler table never changes again, and every call returns `-EPERM`. -/
theorem registry_closes_after_first_hook (hr : Reachable (step rpcId) (init nbg) s) {r : ρ}
    (hreg : (s.pc r).hooked) (happ : ∀ tp f ft, s.app ≠ some (.body tp f ft)) {u : RegSys ρ}
    (hu : Reachable (step rpcId) s u) :
    u.n.reqFuncArr = s.n.reqFuncArr ∧
      ∃ tps : List UInt8, u.rets = s.rets ++ tps.map (·, -EPERM) :=
  closed_stable ((inv_of_reachable hr).closed r hreg) happ hu

/-- The test of `register_req_func` is not atomic with its write. A call that has passed it
while an Rpc has copied the table completes after the Rpc has registered: it returns 0 and the
Nexus has the handler, with registration closed, while the Rpc's copy, which its constructor
never takes again, lacks it for good. A request of that type then reaches a handler that is not
registered in that Rpc (`process_small_req_st` calls `req_func.req_func_` without a test). -/
theorem registry_late_handler_missed {r : ρ} {tp : UInt8} {ft : ReqFuncType}
    (happ : s.app = some (.body tp true ft)) (hfree : s.n.reqFuncArr tp.toNat = none)
    (hbg : ft = .kBackground → 0 < s.n.numBgThreads) (hpc : s.pc r = .copied)
    (hid : (rpcId r).toNat ≠ kInvalidRpcId) (hhook : s.n.regHooksArr (rpcId r).toNat = none)
    (hcopy : s.copy r tp.toNat = none) :
    ∃ u, run (step rpcId) s [.rpc r, .rpc r, .rpc r, .app] = some u ∧ u.pc r = .alive ∧
      u.n.reqFuncRegistrationAllowed = false ∧ u.rets = s.rets ++ [(tp, 0)] ∧
      u.n.reqFuncArr tp.toNat = some ft ∧
      ∀ v, Reachable (step rpcId) u v → v.copy r tp.toNat = none := by
  let s₁ : RegSys ρ := { s with pc := Function.update s.pc r .checked }
  let s₂ : RegSys ρ := { s₁ with pc := Function.update s₁.pc r .hookChecked }
  let s₃ : RegSys ρ :=
    { s₂ with n := s₂.n.registerHook r (rpcId r), pc := Function.update s₂.pc r .alive }
  have e₁ : step rpcId s (.rpc r) = some s₁ := rpcStep_copied_pass hpc hid hhook
  have e₂ : step rpcId s₁ (.rpc r) = some s₂ := rpcStep_checked_pass (by simp [s₁]) hid hhook
  have e₃ : step rpcId s₂ (.rpc r) = some s₃ := rpcStep_hookChecked (by simp [s₂])
  have hbody : s₃.n.registerReqFuncBody tp true ft =
      ({ s₃.n with reqFuncArr := Function.update s.n.reqFuncArr tp.toNat (some ft) }, 0) :=
    NexusReg.registerReqFuncBody_of_free hfree hbg
  have e₄ : step rpcId s₃ .app =
      some { s₃ with n := (s₃.n.registerReqFuncBody tp true ft).1, app := none
                     rets := s₃.rets ++ [(tp, (s₃.n.registerReqFuncBody tp true ft).2)] } := by
    simp [RegSys.step, RegSys.appStep, s₃, s₂, s₁, happ]
  obtain ⟨u, hu, hpcu, hal, hrets, htab, hcu⟩ : ∃ u,
      run (step rpcId) s [.rpc r, .rpc r, .rpc r, .app] = some u ∧ u.pc r = .alive ∧
        u.n.reqFuncRegistrationAllowed = false ∧ u.rets = s.rets ++ [(tp, 0)] ∧
        u.n.reqFuncArr tp.toNat = some ft ∧ u.copy r = s.copy r := by
    refine ⟨_, by rw [run_cons_of_exec e₁, run_cons_of_exec e₂, run_cons_of_exec e₃,
      run_cons_of_exec e₄, run_nil], ?_⟩
    simp [hbody, s₃, s₂, s₁]
  refine ⟨u, hu, hpcu, hal, hrets, htab, fun v hv => ?_⟩
  rw [(copy_stable (by simp [hpcu]) hv).2, hcu, hcopy]

/-- The `rt_assert` on `rpc_id_exists` and the `assert` of `register_hook` are not atomic with
the registration they guard. Two Rpcs of one ID that have copied the table both pass them, both
constructors succeed and no `assert` fails, and the second `register_hook` overwrites the
first: the first Rpc is alive and its ID's entry never names it again, so the management thread
never gives it a packet. -/
theorem registry_duplicate_rpc_id_loses_hook {r₁ r₂ : ρ} (hne : r₁ ≠ r₂)
    (hid : rpcId r₁ = rpcId r₂) (hpc₁ : s.pc r₁ = .copied) (hpc₂ : s.pc r₂ = .copied)
    (hval : (rpcId r₁).toNat ≠ kInvalidRpcId) (hfree : s.n.regHooksArr (rpcId r₁).toNat = none) :
    ∃ t, run (step rpcId) s [.rpc r₁, .rpc r₂, .rpc r₁, .rpc r₂, .rpc r₁, .rpc r₂] = some t ∧
      t.pc r₁ = .alive ∧ t.pc r₂ = .alive ∧ t.fault = s.fault ∧
      t.n.regHooksArr (rpcId r₁).toNat = some r₂ ∧
      ∀ u, Reachable (step rpcId) t u → u.n.regHooksArr (rpcId r₁).toNat ≠ some r₁ := by
  obtain ⟨t, ht, h1, h2, hf, hk⟩ : ∃ t,
      run (step rpcId) s [.rpc r₁, .rpc r₂, .rpc r₁, .rpc r₂, .rpc r₁, .rpc r₂] = some t ∧
        t.pc r₁ = .alive ∧ t.pc r₂ = .alive ∧ t.fault = s.fault ∧
        t.n.regHooksArr (rpcId r₁).toNat = some r₂ := by
    have hfree₂ : s.n.regHooksArr (rpcId r₂).toNat = none := hid ▸ hfree
    have hval₂ : (rpcId r₂).toNat ≠ kInvalidRpcId := hid ▸ hval
    let s₁ : RegSys ρ := { s with pc := Function.update s.pc r₁ .checked }
    let s₂ : RegSys ρ := { s₁ with pc := Function.update s₁.pc r₂ .checked }
    let s₃ : RegSys ρ := { s₂ with pc := Function.update s₂.pc r₁ .hookChecked }
    let s₄ : RegSys ρ := { s₃ with pc := Function.update s₃.pc r₂ .hookChecked }
    let s₅ : RegSys ρ :=
      { s₄ with n := s₄.n.registerHook r₁ (rpcId r₁), pc := Function.update s₄.pc r₁ .alive }
    let s₆ : RegSys ρ :=
      { s₅ with n := s₅.n.registerHook r₂ (rpcId r₂), pc := Function.update s₅.pc r₂ .alive }
    have e₁ : step rpcId s (.rpc r₁) = some s₁ := rpcStep_copied_pass hpc₁ hval hfree
    have e₂ : step rpcId s₁ (.rpc r₂) = some s₂ :=
      rpcStep_copied_pass (by simp [s₁, Function.update_of_ne hne.symm, hpc₂]) hval₂ hfree₂
    have e₃ : step rpcId s₂ (.rpc r₁) = some s₃ :=
      rpcStep_checked_pass (by simp [s₂, s₁, Function.update_of_ne hne]) hval hfree
    have e₄ : step rpcId s₃ (.rpc r₂) = some s₄ :=
      rpcStep_checked_pass (by simp [s₃, s₂, Function.update_of_ne hne.symm]) hval₂ hfree₂
    have e₅ : step rpcId s₄ (.rpc r₁) = some s₅ :=
      rpcStep_hookChecked (by simp [s₄, s₃, Function.update_of_ne hne])
    have e₆ : step rpcId s₅ (.rpc r₂) = some s₆ :=
      rpcStep_hookChecked (by simp [s₅, s₄, Function.update_of_ne hne.symm])
    refine ⟨s₆, by rw [run_cons_of_exec e₁, run_cons_of_exec e₂, run_cons_of_exec e₃,
      run_cons_of_exec e₄, run_cons_of_exec e₅, run_cons_of_exec e₆, run_nil], ?_⟩
    simp [s₆, s₅, s₄, s₃, s₂, s₁, Function.update_of_ne hne, NexusReg.registerHook, hid]
  refine ⟨t, ht, h1, h2, hf, hk, fun u hu => hook_lost_stable (by simp [h1, RpcPc.hooked])
    (by rw [hk]; simpa using hne.symm) hu⟩

end Results

section Runs

/-- Two Rpcs, of IDs 0 and 1. -/
def twoIds : Fin 2 → UInt8 := fun r => r.val.toUInt8

theorem twoIds_injective : Function.Injective twoIds := by
  intro a b h
  fin_cases a <;> fin_cases b <;> first | rfl | exact absurd h (by decide)

/-- The application registers a foreground handler for request type 3, then Rpc 0 is created. -/
def createdRun : List (RegAct (Fin 2)) :=
  [.call 3 true .kForeground, .app, .app] ++ List.replicate 4 (.rpc ⟨0, Nat.zero_lt_two⟩)

theorem createdRun_reachable : ∃ s : RegSys (Fin 2), Reachable (step twoIds) (init 0) s ∧
    (s.pc 0 = .alive ∧ s.app = none ∧ s.n.regHooksArr (twoIds 0).toNat = some 0 ∧
      s.copy 0 3 = some .kForeground) :=
  Reachable.exists_of_run createdRun (by decide)

theorem registry_hooks_name_live_rpcs_created : ∃ s : RegSys (Fin 2),
    Reachable (step twoIds) (init 0) s ∧ s.n.regHooksArr (twoIds 0).toNat = some 0 ∧
      (s.pc 0).registered := by
  obtain ⟨s, hr, -, -, hk, -⟩ := createdRun_reachable
  exact ⟨s, hr, hk, ((registry_hooks_name_live_rpcs hr).1 _ 0 hk).2⟩

theorem registry_hooks_exact_created : ∃ s : RegSys (Fin 2), Reachable (step twoIds) (init 0) s ∧
    s.n.regHooksArr (twoIds 0).toNat = some 0 ∧ s.fault = false := by
  obtain ⟨s, hr, hpc, -, -, -⟩ := createdRun_reachable
  obtain ⟨hown, hf⟩ := registry_hooks_exact twoIds_injective hr
  exact ⟨s, hr, (hown 0).2 (by simp [hpc, RpcPc.registered]), hf⟩

theorem registry_handler_tables_agree_created : ∃ s : RegSys (Fin 2),
    Reachable (step twoIds) (init 0) s ∧ s.copy 0 3 = some .kForeground ∧
      s.n.reqFuncArr 3 = some .kForeground := by
  obtain ⟨s, hr, -, -, -, hc⟩ := createdRun_reachable
  exact ⟨s, hr, hc, (registry_handler_tables_agree hr).1 0 3 _ hc⟩

theorem registry_closes_after_first_hook_created : ∃ s : RegSys (Fin 2),
    Reachable (step twoIds) (init 0) s ∧ (s.pc 0).hooked ∧
      ∀ u, Reachable (step twoIds) s u → u.n.reqFuncArr = s.n.reqFuncArr := by
  obtain ⟨s, hr, hpc, happ, -, -⟩ := createdRun_reachable
  have hhook : (s.pc 0).hooked := by simp [hpc, RpcPc.hooked]
  exact ⟨s, hr, hhook, fun u hu =>
    (registry_closes_after_first_hook hr hhook (by simp [happ]) hu).1⟩

/-- The application's call of `register_req_func` for type 3 passes its test, then Rpc 0 copies
the handler table, still empty. -/
def lateRun : List (RegAct (Fin 2)) := [.call 3 true .kForeground, .app, .rpc ⟨0, Nat.zero_lt_two⟩]

theorem lateRun_reachable : ∃ s : RegSys (Fin 2), Reachable (step twoIds) (init 0) s ∧
    (s.app = some (.body 3 true .kForeground) ∧ s.n.reqFuncArr (3 : UInt8).toNat = none ∧
      s.pc 0 = .copied ∧ s.n.regHooksArr (twoIds 0).toNat = none ∧
      s.copy 0 (3 : UInt8).toNat = none ∧ s.rets = []) :=
  Reachable.exists_of_run lateRun (by decide)

theorem registry_late_handler_missed_run : ∃ u : RegSys (Fin 2),
    Reachable (step twoIds) (init 0) u ∧ u.pc 0 = .alive ∧ u.rets = [(3, 0)] ∧
      u.n.reqFuncArr 3 = some .kForeground ∧ u.copy 0 3 = none := by
  obtain ⟨s, hr, happ, hfree, hpc, hhook, hcopy, hrets⟩ := lateRun_reachable
  obtain ⟨u, hu, hpcu, -, hretsu, htab, hcu⟩ :=
    registry_late_handler_missed happ hfree (by simp) hpc (by decide) hhook hcopy
  exact ⟨u, Reachable.of_run _ hr hu, hpcu, by simp [hretsu, hrets], htab, hcu u .init⟩

/-- Two Rpcs of the same ID 3 copy the handler table. -/
def dupRun : List (RegAct (Fin 2)) := [.rpc ⟨0, Nat.zero_lt_two⟩, .rpc ⟨1, Nat.one_lt_two⟩]

theorem dupRun_reachable : ∃ s : RegSys (Fin 2), Reachable (step fun _ => 3) (init 0) s ∧
    (s.pc 0 = .copied ∧ s.pc 1 = .copied ∧ s.n.regHooksArr (3 : UInt8).toNat = none) :=
  Reachable.exists_of_run dupRun (by decide)

theorem registry_duplicate_rpc_id_loses_hook_run : ∃ t : RegSys (Fin 2),
    Reachable (step fun _ => 3) (init 0) t ∧ t.pc 0 = .alive ∧ t.pc 1 = .alive ∧
      t.n.regHooksArr (3 : UInt8).toNat = some 1 := by
  obtain ⟨s, hr, h0, h1, hfree⟩ := dupRun_reachable
  obtain ⟨t, ht, ha0, ha1, -, hk, -⟩ := @registry_duplicate_rpc_id_loses_hook (Fin 2) _
    (fun _ => 3) s 0 1 (by decide) rfl h0 h1 (by decide) hfree
  exact ⟨t, Reachable.of_run _ hr ht, ha0, ha1, hk⟩

end Runs

end RegSys

end ERpc
