import MrAgent.BrokerState

namespace MrAgent

/-!
# Lease and effect scripts

`CLAIM_MR_LUA` to `ASSERT_FENCE_LUA`, `REVOKE_MR_LUA` and the three effect
scripts. A lease is a key with a time to live, so its expiry is a step of its
own. The fence counter has no time to live and survives every lease.
-/

namespace Broker

/--
`CLAIM_MR_LUA`: an existing lease is reported (and renewed for its owner); a
free merge request gets the next fencing token.
-/
def claimMr (s : Broker) (mr : MrKey) (worker : WorkerId) : Broker × MrLease :=
  match s.leases mr with
  | some (owner, token) => (s, ⟨mr, owner, token⟩)
  | none =>
    let token := s.fences mr + 1
    ({ s with
        fences := Function.update s.fences mr token
        leases := Function.update s.leases mr (some (worker, token)) },
      ⟨mr, worker, token⟩)

/-- `RENEW_MR_LUA`: only the time to live changes. -/
def renewMr (s : Broker) (lease : MrLease) : Broker × Int :=
  if s.holds lease then (s, 1) else (s, 0)

/-- `RELEASE_MR_LUA`. -/
def releaseMr (s : Broker) (lease : MrLease) : Broker × Int :=
  if s.holds lease then
    ({ s with leases := Function.update s.leases lease.mr none }, 1)
  else (s, 0)

/-- `REVOKE_MR_LUA`: a missing lease counts as revoked. -/
def revokeMr (s : Broker) (lease : MrLease) : Broker × Int :=
  if s.leases lease.mr = none then (s, 1)
  else if s.holds lease then
    ({ s with leases := Function.update s.leases lease.mr none }, 1)
  else (s, 0)

/-- The lease key of a merge request runs out of time. -/
def expireLease (s : Broker) (mr : MrKey) : Broker :=
  { s with leases := Function.update s.leases mr none }

/-- `ASSERT_FENCE_LUA`. -/
def assertFence (s : Broker) (lease : MrLease) : Int :=
  if s.holds lease then 1 else 0

/-- Reply of `CLAIM_EFFECT_LUA`. -/
inductive EffectReply where
  | lostLease
  | record (status : EffectStatus) (metadata result : String)
deriving DecidableEq

/--
`CLAIM_EFFECT_LUA`. The task is the part of the effect key before its first
colon; the caller passes both.
-/
def claimEffect
    (s : Broker)
    (effectKey : String)
    (task : TaskId)
    (lease : Option MrLease)
    (metadata : String)
    (now : Time) : Broker × EffectReply :=
  if !s.leaseOk lease then (s, .lostLease)
  else
    let effect := s.effects effectKey
    match effect.status with
    | some .started =>
      (s.updTask task fun t => { t with activeEffect := some effectKey },
        .record .started (effect.metadata.getD "{}") (effect.result.getD ""))
    | some .completed =>
      (s, .record .completed (effect.metadata.getD "{}") (effect.result.getD ""))
    | none =>
      let s := { s with
        effects := Function.update s.effects effectKey
          { effect with
            status := some .started
            metadata := some metadata
            createdAt := some now
            updatedAt := some now } }
      (s.updTask task fun t => { t with activeEffect := some effectKey },
        .record .started metadata "")

/-- `UPDATE_EFFECT_LUA`. -/
def updateEffect
    (s : Broker)
    (effectKey : String)
    (lease : Option MrLease)
    (metadata : String)
    (now : Time) : Broker × Int :=
  if !s.leaseOk lease then (s, -1)
  else
    let effect := s.effects effectKey
    if effect.status ≠ some .started then (s, 0)
    else
      ({ s with
          effects := Function.update s.effects effectKey
            { effect with metadata := some metadata, updatedAt := some now } },
        1)

/-- `COMPLETE_EFFECT_LUA`. -/
def completeEffect
    (s : Broker)
    (effectKey : String)
    (task : TaskId)
    (lease : Option MrLease)
    (result : String)
    (now : Time) : Broker × Int :=
  if !s.leaseOk lease then (s, -1)
  else
    let effect := s.effects effectKey
    if effect.status = none then (s, 0)
    else
      let s := { s with
        effects := Function.update s.effects effectKey
          { effect with
            status := some .completed
            result := some result
            updatedAt := some now } }
      if (s.tasks task).activeEffect = some effectKey then
        (s.updTask task fun t => { t with activeEffect := none }, 1)
      else (s, 1)

end Broker

end MrAgent
