import ERpc.Model.Nexus

/-!
# Handler registration and the hooks of a Nexus

A `Nexus` (`nexus.h`, `nexus_impl/nexus.cc`) keeps the request handlers the application
registers (`req_func_arr_`, by `register_req_func`) and the hooks of the Rpcs created on it
(`reg_hooks_arr_`, indexed by Rpc ID). An Rpc copies the handler table as its constructor starts
(`Rpc::Rpc`, `rpc_impl/rpc.cc`), checks that no hook has its ID (`rpc_id_exists`) and registers
its hook (`register_hook`), which closes registration (`req_func_registration_allowed_`); its
destructor unregisters the hook (`unregister_hook`). The session-management thread queues a
packet on the hook of the Rpc it names (`smThreadFunc`), and the background threads read the
Nexus's own handler table.

An entry of a handler table is `none` where its `req_func_` is null, as `ReqFunc ()` leaves it,
with a `req_func_type_` that `ReqFunc ()` leaves uninitialized and that only the undefined
dispatch of `Rpc.invokeReqFunc` reads; a registered handler is the type it was registered with.
Its function pointer is left out but for `register_req_func`'s test of `nullptr` (`hasFunc`) and
whether it is null (`is_registered`). Rpc IDs and request types are `uint8_t`,
and index the tables as numbers, as in the Rpc's copy (`Rpc.reqFuncArr`). A hook is named by the
Rpc it belongs to; the background queues `register_hook` installs in it are left out.
`register_hook` and `unregister_hook` begin with `assert`s made before they take
`reg_hooks_lock_`, which are functions of their own here (`registerHookOk`, `unregisterHookOk`),
so that a thread can be interrupted between them and the locked part.
-/

namespace ERpc

def kReqTypeArraySize : ℕ := 256

def EEXIST : ℤ := 17

/-- The registration state of a `Nexus` whose hooks are named by `ρ`: `req_func_arr_`,
`req_func_registration_allowed_`, `reg_hooks_arr_` and `num_bg_threads_`. -/
structure NexusReg (ρ : Type) where
  reqFuncArr : ℕ → Option ReqFuncType
  reqFuncRegistrationAllowed : Bool
  regHooksArr : ℕ → Option ρ
  numBgThreads : ℕ

namespace NexusReg

variable {ρ : Type} (n : NexusReg ρ)

/-- `Nexus::Nexus` with `num_bg_threads` background threads. -/
def init (numBgThreads : ℕ) : NexusReg ρ := ⟨fun _ => none, true, fun _ => none, numBgThreads⟩

/-- `register_req_func` after its test of `req_func_registration_allowed_`: the Nexus after it
and the return value. -/
def registerReqFuncBody (reqType : UInt8) (hasFunc : Bool) (reqFuncType : ReqFuncType) :
    NexusReg ρ × ℤ :=
  if (n.reqFuncArr reqType.toNat).isSome then (n, -EEXIST)
  else if !hasFunc then (n, -EINVAL)
  else if reqFuncType = .kBackground ∧ n.numBgThreads = 0 then (n, -EPERM)
  else ({ n with reqFuncArr := Function.update n.reqFuncArr reqType.toNat (some reqFuncType) }, 0)

def registerReqFunc (reqType : UInt8) (hasFunc : Bool) (reqFuncType : ReqFuncType) :
    NexusReg ρ × ℤ :=
  if !n.reqFuncRegistrationAllowed then (n, -EPERM)
  else n.registerReqFuncBody reqType hasFunc reqFuncType

def rpcIdExists (rpcId : UInt8) : Bool := (n.regHooksArr rpcId.toNat).isSome

/-- The `assert`s of `register_hook`. -/
def registerHookOk (rpcId : UInt8) : Bool :=
  decide (rpcId.toNat ≤ kMaxRpcId) && (n.regHooksArr rpcId.toNat).isNone

/-- `register_hook (hook)` under `reg_hooks_lock_`. -/
def registerHook (hook : ρ) (rpcId : UInt8) : NexusReg ρ :=
  { n with reqFuncRegistrationAllowed := false
           regHooksArr := Function.update n.regHooksArr rpcId.toNat (some hook) }

/-- The `assert`s of `unregister_hook`. -/
def unregisterHookOk [DecidableEq ρ] (hook : ρ) (rpcId : UInt8) : Bool :=
  decide (rpcId.toNat ≤ kMaxRpcId) && decide (n.regHooksArr rpcId.toNat = some hook)

/-- `unregister_hook (hook)` under `reg_hooks_lock_`. -/
def unregisterHook (rpcId : UInt8) : NexusReg ρ :=
  { n with regHooksArr := Function.update n.regHooksArr rpcId.toNat none }

/-- Which Rpc IDs have a hook, as `sm_thread_func` reads `reg_hooks_arr_`. -/
def hookView : Fin (kMaxRpcId + 1) → Bool := fun k => (n.regHooksArr k).isSome

section Lemmas

variable {n} {reqType : UInt8} {hasFunc : Bool} {reqFuncType : ReqFuncType}

@[simp] theorem registerHook_reqFuncArr (hook : ρ) (rpcId : UInt8) :
    (n.registerHook hook rpcId).reqFuncArr = n.reqFuncArr := rfl

@[simp] theorem registerHook_numBgThreads (hook : ρ) (rpcId : UInt8) :
    (n.registerHook hook rpcId).numBgThreads = n.numBgThreads := rfl

@[simp] theorem registerHook_allowed (hook : ρ) (rpcId : UInt8) :
    (n.registerHook hook rpcId).reqFuncRegistrationAllowed = false := rfl

@[simp] theorem unregisterHook_reqFuncArr (rpcId : UInt8) :
    (n.unregisterHook rpcId).reqFuncArr = n.reqFuncArr := rfl

@[simp] theorem unregisterHook_numBgThreads (rpcId : UInt8) :
    (n.unregisterHook rpcId).numBgThreads = n.numBgThreads := rfl

@[simp] theorem unregisterHook_allowed (rpcId : UInt8) :
    (n.unregisterHook rpcId).reqFuncRegistrationAllowed = n.reqFuncRegistrationAllowed := rfl

/-- What the body of `register_req_func` can do: fail and change nothing, or write the handler
into a free entry, a background one only with background threads. -/
theorem registerReqFuncBody_cases (n : NexusReg ρ) (reqType : UInt8) (hasFunc : Bool)
    (reqFuncType : ReqFuncType) :
    ((n.registerReqFuncBody reqType hasFunc reqFuncType).1 = n ∧
        (n.registerReqFuncBody reqType hasFunc reqFuncType).2 ≠ 0) ∨
      (n.reqFuncArr reqType.toNat = none ∧ hasFunc = true ∧
        (reqFuncType = .kBackground → 0 < n.numBgThreads) ∧
        (n.registerReqFuncBody reqType hasFunc reqFuncType).1 =
          { n with reqFuncArr := Function.update n.reqFuncArr reqType.toNat (some reqFuncType) } ∧
        (n.registerReqFuncBody reqType hasFunc reqFuncType).2 = 0) := by
  unfold registerReqFuncBody
  split_ifs with hset hnull hbg
  · exact .inl ⟨rfl, by simp [EEXIST]⟩
  · exact .inl ⟨rfl, by simp [EINVAL]⟩
  · exact .inl ⟨rfl, by simp [EPERM]⟩
  · refine .inr ⟨Option.not_isSome_iff_eq_none.1 hset, by simpa using hnull, fun h => ?_, rfl, rfl⟩
    exact Nat.pos_of_ne_zero fun h0 => hbg ⟨h, h0⟩

theorem registerReqFuncBody_reqFuncArr_of_some {t : ℕ} {ft : ReqFuncType}
    (h : n.reqFuncArr t = some ft) :
    (n.registerReqFuncBody reqType hasFunc reqFuncType).1.reqFuncArr t = some ft := by
  rcases registerReqFuncBody_cases n reqType hasFunc reqFuncType with
    ⟨h1, -⟩ | ⟨hfree, -, -, h1, -⟩
  · rw [h1, h]
  · rw [h1]
    have hne : t ≠ reqType.toNat := fun e => by simp [e, hfree] at h
    simp [Function.update_of_ne hne, h]

/-- A handler for a free entry, a background one only with background threads, goes in, and the
call returns 0. -/
theorem registerReqFuncBody_of_free (hfree : n.reqFuncArr reqType.toNat = none)
    (hbg : reqFuncType = .kBackground → 0 < n.numBgThreads) :
    n.registerReqFuncBody reqType true reqFuncType =
      ({ n with reqFuncArr := Function.update n.reqFuncArr reqType.toNat (some reqFuncType) },
        0) := by
  have hnb : ¬(reqFuncType = .kBackground ∧ n.numBgThreads = 0) := fun ⟨h1, h2⟩ => by
    have := hbg h1
    omega
  simp [registerReqFuncBody, hfree, hnb]

@[simp] theorem registerReqFuncBody_numBgThreads :
    (n.registerReqFuncBody reqType hasFunc reqFuncType).1.numBgThreads = n.numBgThreads := by
  rcases registerReqFuncBody_cases n reqType hasFunc reqFuncType with
    ⟨h1, -⟩ | ⟨-, -, -, h1, -⟩ <;> rw [h1]

@[simp] theorem registerReqFuncBody_regHooksArr :
    (n.registerReqFuncBody reqType hasFunc reqFuncType).1.regHooksArr = n.regHooksArr := by
  rcases registerReqFuncBody_cases n reqType hasFunc reqFuncType with
    ⟨h1, -⟩ | ⟨-, -, -, h1, -⟩ <;> rw [h1]

@[simp] theorem registerReqFuncBody_allowed :
    (n.registerReqFuncBody reqType hasFunc reqFuncType).1.reqFuncRegistrationAllowed =
      n.reqFuncRegistrationAllowed := by
  rcases registerReqFuncBody_cases n reqType hasFunc reqFuncType with
    ⟨h1, -⟩ | ⟨-, -, -, h1, -⟩ <;> rw [h1]

end Lemmas

end NexusReg

/-- The management thread pushes a packet only on the hook of the Rpc the packet names, and
unchanged. -/
theorem smThreadFunc_eq_push {v : Fin (kMaxRpcId + 1) → Bool} {p q : SmPkt} {k : ℕ}
    (h : smThreadFunc v p = some (.push k q)) : q = p ∧ k = p.targetRpcId := by
  unfold smThreadFunc at h
  split_ifs at h <;> simp only [Option.some.injEq, reduceCtorEq, SmThreadAction.push.injEq] at h
  exact ⟨h.2.symm, h.1.symm⟩

end ERpc
