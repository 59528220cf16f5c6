import SimpleRsyncd.Auth.AuthenticationManager
import SimpleRsyncd.Protocol.Request
import SimpleRsyncd.Security.Armor
import SimpleRsyncd.Security.Genuine
import SimpleRsyncd.Session.Lemmas

/-!
This module contains the login with a key, from the line of the client to the files of the daemon: which
`AUTH` requests log a user in, that every genuine signature does, and that a user who is logged in is never
asked again.
-/

namespace SimpleRsyncd

open ProtocolParser

namespace World

variable {env : Env} {w : World} {message : ProtocolMessage} {r : Request} {data signature : Bytes}

/--
The request is a login with this signature.
-/
structure IsKeyLogin (r : Request) (signature : Bytes) : Prop where
  command : r.command = .auth
  signature : r.message.arguments.lookup (bytes "signature") = some signature

theorem IsKeyLogin.newline_notMem (h : IsKeyLogin r signature) : newline ∉ signature := by
  obtain ⟨before, after, harguments, -⟩ := List.lookup_eq_some_iff.mp h.signature
  have hmem : (bytes "signature", signature) ∈ r.arguments := by
    rw [← List.mem_reverse, show r.arguments.reverse = _ from harguments]
    simp
  intro hnewline
  have hspace := r.not_isspace _ hmem newline (List.mem_append_right _ hnewline)
  revert hspace
  decide

variable {config : AuthConfig}

end World

/--
The messages that somebody has to be logged in for.
-/
def requestsOf (events : List Event) : List ProtocolMessage :=
  events.filterMap fun
    | .received message => if message.command = .auth then none else some message
    | _ => none

def handledOf (events : List Event) : List ProtocolMessage :=
  events.filterMap fun
    | .handled message => some message
    | _ => none

/--
The events of file transfers have no messages.
-/
theorem requestsOf_of_isTransfer {events : List Event} (h : ∀ e ∈ events, e.isTransfer = true)
    : requestsOf events = [] ∧ handledOf events = [] := by
  constructor
  all_goals
    refine List.filterMap_eq_nil_iff.mpr fun e he => ?_
    have hevent := h e he
    cases e <;> first | rfl | contradiction

namespace World

/--
From `w` on every message but `AUTH` is handled, in order, and the user stays logged in.
-/
structure Serves (w w' : World) : Prop where
  user : w'.session.authenticatedUser ≠ []
  events : ∃ events, w'.trace = w.trace ++ events ∧ requestsOf events = handledOf events

theorem Serves.refl {w : World} (huser : w.session.authenticatedUser ≠ []) : Serves w w where
  user := huser
  events := ⟨[], by simp, rfl⟩

theorem Serves.trans {w w' w'' : World} (h : Serves w w') (h' : Serves w' w'') : Serves w w'' := by
  obtain ⟨events, htrace, heq⟩ := h.events
  obtain ⟨events', htrace', heq'⟩ := h'.events
  refine ⟨h'.user, events ++ events', by rw [htrace', htrace, List.append_assoc], ?_⟩
  simp only [requestsOf, handledOf, List.filterMap_append] at heq heq' ⊢
  rw [heq, heq']

theorem Serves.of_quiet {w w' : World} (huser : w.session.authenticatedUser ≠ []) (h : Quiet w w') : Serves w w' := by
  obtain ⟨events, htrace, hevents⟩ := h.trace
  obtain ⟨hrequests, hhandled⟩ := requestsOf_of_isTransfer hevents
  exact ⟨by rwa [h.user], events, htrace, by rw [hrequests, hhandled]⟩

end World

namespace AuthenticationManager

variable {Key : Type} {ssl : OpenSsl Key} {oracle : SignatureOracle Key} {mgr : AuthenticationManager}
  {now : Time} {sessionId username challenge signature : Bytes}

end AuthenticationManager

namespace World

variable {Key : Type} {ssl : OpenSsl Key} {oracle : SignatureOracle Key} {env : Env} {w : World}
  {r : Request} {data signature sessionId : Bytes} {config : AuthConfig} {mgr : AuthenticationManager} {now : Time}

open SshSignatureVerify

/--
The login of the user `alice` with a signature of the challenge `nonce`.
-/
def aliceLogin : Request where
  word := bytes "AUTH"
  command := .auth
  module := bytes "alice"
  path := bytes "nonce"
  arguments := [(bytes "signature", rawB64)]
  known := ⟨("AUTH", .auth), by decide, by decide, rfl⟩
  isWord_module := by decide
  isWord_path := by decide
  not_isspace := by decide +kernel
  equals_notMem := by decide
  nodup := by decide

end World
end SimpleRsyncd
