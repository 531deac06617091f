/-
This file models `recv_loop` of the ping protocol, `p2p/src/protocols/ping.rs`, with the window of
nonces by which it drops replayed pings.

The window is the last answered nonces, and a ping is answered if and only if its nonce is not
among them (`ping_replay_window`).
-/

import Karyon.P2p.Lookup
import Mathlib.Data.List.DropRight

namespace Karyon.P2p

open Transition

inductive PingProtocolMsg where
  | ping (nonce : Nonce)
  | pong (nonce : Nonce)
  deriving DecidableEq

/-- Recent ping nonces remembered to drop replays. -/
def PING_DEDUP_WINDOW : Nat := 64

/-- What is received in a turn of the loop, and how what it sends goes: the answer to a ping, or
the pong that it hands over. -/
structure PingTurn where
  payload : Except Error Bytes
  sent : Except Error Unit

/-- The window, and the result of the loop when it has ended. -/
structure RecvLoop where
  seen : List Nonce
  result : Option (Except Error Unit)

namespace RecvLoop

def remember (seen : List Nonce) (nonce : Nonce) : List Nonce :=
  (if seen.length = PING_DEDUP_WINDOW then seen.tail else seen) ++ [nonce]

/-- One turn, with the nonce that it has answered. -/
def turn (pingMsg : Bincode PingProtocolMsg) (self : RecvLoop) (turn : PingTurn) :
    RecvLoop × List Nonce :=
  match turn.payload with
  | .error .peerShutdown => ({ self with result := some (.ok ()) }, [])
  | .error error => ({ self with result := some (.error error) }, [])
  | .ok payload =>
    match pingMsg.decode payload with
    | .error error => ({ self with result := some (.error error) }, [])
    | .ok (.ping nonce, _) =>
      if nonce ∈ self.seen then (self, [])
      else
        match (pingMsg.encode (.pong nonce)).bind fun _ => turn.sent with
        | .ok () => ({ self with seen := remember self.seen nonce }, [nonce])
        | .error error => (⟨remember self.seen nonce, some (.error error)⟩, [])
    | .ok (.pong _, _) =>
      match turn.sent with
      | .ok () => (self, [])
      | .error error => ({ self with result := some (.error error) }, [])

def step (pingMsg : Bincode PingProtocolMsg) (self : RecvLoop) (turn : PingTurn) :
    Option (RecvLoop × List Nonce) :=
  if self.result.isSome then none else some (self.turn pingMsg turn)

end RecvLoop

/-- The loop with its turns as steps, which emit the nonces that are answered. -/
def recvLoopMachine (pingMsg : Bincode PingProtocolMsg) : Machine RecvLoop PingTurn Nonce where
  start := ⟨[], none⟩
  step := RecvLoop.step pingMsg

namespace RecvLoop

variable {history : List Nonce} {nonce : Nonce}

theorem remember_rtake :
    remember (history.rtake PING_DEDUP_WINDOW) nonce =
      (history ++ [nonce]).rtake PING_DEDUP_WINDOW := by
  rw [remember, PING_DEDUP_WINDOW, List.rtake_concat_succ, List.rtake, List.rtake,
    List.length_drop]
  split
  · rw [List.tail_drop, show history.length - 64 + 1 = history.length - 63 by omega]
  · rw [show history.length - 64 = history.length - 63 by omega]

/-- The answers that are near to each other have different nonces. -/
def Apart (history : List Nonce) : Prop :=
  ∀ part, part <:+: history → part.length ≤ PING_DEDUP_WINDOW → part.Nodup

theorem Apart.concat (apart : Apart history) (new : nonce ∉ history.rtake PING_DEDUP_WINDOW) :
    Apart (history ++ [nonce]) := by
  intro part within short
  rcases List.infix_concat_iff.mp within with last | earlier
  · rcases List.suffix_concat_iff.mp last with rfl | ⟨before, rfl, suffix⟩
    · exact List.nodup_nil
    · rw [List.length_append, List.length_singleton] at short
      have recent : before <:+ history.rtake PING_DEDUP_WINDOW := by
        refine List.suffix_of_suffix_length_le suffix (List.drop_suffix _ _) ?_
        have bound := suffix.length_le
        rw [List.rtake, List.length_drop]
        omega
      rw [← List.concat_eq_append]
      exact .concat (fun member => new (recent.subset member))
        (apart before suffix.isInfix (Nat.le_of_succ_le short))
  · exact apart part earlier short

/-- While the loop runs its window is the last answers. -/
structure Windowed (history : List Nonce) (loop : RecvLoop) : Prop where
  window : loop.result = none → loop.seen = history.rtake PING_DEDUP_WINDOW
  apart : Apart history

theorem Windowed.turn {pingMsg : Bincode PingProtocolMsg} {loop : RecvLoop}
    (windowed : Windowed history loop) (running : loop.result = none) (turn : PingTurn) :
    Windowed (history ++ (loop.turn pingMsg turn).2) (loop.turn pingMsg turn).1 := by
  have seen := windowed.window running
  have ended (seen : List Nonce) (result : Except Error Unit) :
      Windowed (history ++ []) ⟨seen, some result⟩ := by
    rw [List.append_nil]
    exact ⟨nofun, windowed.apart⟩
  have kept : Windowed (history ++ []) loop := by
    rw [List.append_nil]
    exact windowed
  fun_cases RecvLoop.turn pingMsg loop turn
  case case5 new _ =>
    rw [seen] at new
    refine ⟨fun _ => ?_, windowed.apart.concat new⟩
    rw [← remember_rtake, ← seen]
  all_goals first | exact ended _ _ | exact kept

end RecvLoop

/-- In every run of the loop the window is the nonces of the last answered pings, in their order
and without duplicates, and the next ping is answered if and only if its nonce is not among them.
All nonces of so many answers in a row are distinct. -/
theorem ping_replay_window {pingMsg : Bincode PingProtocolMsg} {history : List Nonce}
    {loop : RecvLoop} (run : (recvLoopMachine pingMsg).Run (fun _ _ => True) history loop) :
    (loop.result = none → loop.seen = history.rtake PING_DEDUP_WINDOW ∧
      loop.seen.length ≤ PING_DEDUP_WINDOW ∧ loop.seen.Nodup ∧
      ∀ payload nonce length bytes, pingMsg.decode payload = .ok (.ping nonce, length) →
        pingMsg.encode (.pong nonce) = .ok bytes →
        ∃ next, (recvLoopMachine pingMsg).step loop ⟨.ok payload, .ok ()⟩ =
          some (next, if nonce ∈ history.rtake PING_DEDUP_WINDOW then [] else [nonce])) ∧
      ∀ part, part <:+: history → part.length ≤ PING_DEDUP_WINDOW → part.Nodup := by
  have windowed : RecvLoop.Windowed history loop := by
    refine run.invariant RecvLoop.Windowed ⟨fun _ => rfl, fun part within _ => ?_⟩ ?_
    · rw [List.infix_nil.mp within]
      exact List.nodup_nil
    · intro history loop turn next answered before _ step
      obtain ⟨running, same⟩ := Option.ite_none_left_eq_some.mp step
      obtain ⟨rfl, rfl⟩ := Prod.mk.inj (Option.some.inj same.symm)
      exact before.turn (Option.not_isSome_iff_eq_none.mp running) turn
  refine ⟨fun running => ?_, windowed.apart⟩
  have seen := windowed.window running
  have short : loop.seen.length ≤ PING_DEDUP_WINDOW := by
    rw [seen, List.rtake, List.length_drop]
    omega
  have distinct : loop.seen.Nodup := by
    refine windowed.apart _ ?_ short
    rw [seen]
    exact (List.drop_suffix _ _).isInfix
  refine ⟨seen, short, distinct, fun payload nonce length bytes decoded encoded => ?_⟩
  rw [← seen, recvLoopMachine]
  simp only [RecvLoop.step, RecvLoop.turn, running, decoded, encoded, Option.isSome_none,
    Bool.false_eq_true, if_false]
  split
  · exact ⟨_, rfl⟩
  · exact ⟨_, rfl⟩

/-- A ping that comes twice is answered once. -/
theorem ping_replay_window_twice :
    ∃ (pingMsg : Bincode PingProtocolMsg) (history : List Nonce) (loop : RecvLoop),
      (recvLoopMachine pingMsg).Run (fun _ _ => True) history loop ∧ history.length = 1 ∧
        loop.seen = history.rtake PING_DEDUP_WINDOW := by
  let nonce : Nonce := .replicate 32 0
  have taken : (recvLoopMachine (.ofTable [.ping nonce, .pong nonce])).trace
      [⟨.ok [], .ok ()⟩, ⟨.ok [], .ok ()⟩] = some ([nonce], ⟨[nonce], none⟩) := rfl
  have run := Machine.Run.of_trace taken
  exact ⟨_, _, _, run, rfl, ((ping_replay_window run).1 rfl).1⟩

end Karyon.P2p
