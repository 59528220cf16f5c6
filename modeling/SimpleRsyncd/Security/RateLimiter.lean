import SimpleRsyncd.Bytes.Order
import SimpleRsyncd.Time.Basic

/-!
This module contains the `ConnectionRateLimiter`, which counts the connections of each client within
windows of a minute and of an hour.
-/

namespace SimpleRsyncd

/--
A rate limiter, what it has counted so far is left out.
-/
structure ConnectionRateLimiter where
  maxPerMinute : Nat
  maxPerHour : Nat
  deriving DecidableEq

/--
A window whose start is the epoch of the steady clock has not been opened yet.
-/
structure Window where
  count : Nat := 0
  start : Time := 0
  deriving DecidableEq

/--
What a rate limiter has counted so far.
-/
structure ConnectionWindows where
  minuteWindows : OrderedMap Bytes Window := .empty
  hourWindows : OrderedMap Bytes Window := .empty

namespace Window

def minute : Int := 60 * 1000000000

def hour : Int := 3600 * 1000000000

variable (window : Window) (maxCount : Nat) (period : Int) (now : Time)

/--
The window that a reading of the clock falls into.
-/
def current : Window :=
  if window.start = 0 || period ≤ now - window.start then { count := 0, start := now } else window

def incrementWindow : Bool × Window :=
  let window := window.current period now
  if 0 < maxCount && maxCount ≤ window.count then
    (false, window)
  else
    (true, { window with count := window.count + 1 })

end Window

section windows

variable (maxCount : Nat) (period : Int) (clientIp : Bytes) (now : Time) (windows : OrderedMap Bytes Window)

/--
The entry that `operator[]` finds or makes.
-/
def windowOf : Window :=
  (windows.lookup clientIp).getD {}

/--
What `allowConnection` does with the windows of one length.
-/
def checkWindow : Bool × OrderedMap Bytes Window :=
  if 0 < maxCount then
    let window := (windowOf clientIp windows).current period now
    (!(maxCount ≤ window.count), windows.insert clientIp window)
  else
    (true, windows)

/--
What `recordConnection` does with the windows of one length.
-/
def recordWindow : OrderedMap Bytes Window :=
  if 0 < maxCount then
    windows.insert clientIp ((windowOf clientIp windows).incrementWindow maxCount period now).2
  else
    windows

end windows

namespace ConnectionRateLimiter

variable (limiter : ConnectionRateLimiter) (clientIp : Bytes) (windows : ConnectionWindows)

def allowConnection (now : Time) : Bool × ConnectionWindows :=
  if limiter.maxPerMinute = 0 && limiter.maxPerHour = 0 then
    (true, windows)
  else
    let (allowed, minuteWindows) := checkWindow limiter.maxPerMinute Window.minute clientIp now windows.minuteWindows
    if !allowed then
      (false, { windows with minuteWindows })
    else
      let (allowed, hourWindows) := checkWindow limiter.maxPerHour Window.hour clientIp now windows.hourWindows
      (allowed, { minuteWindows, hourWindows })

/--
Each of the two calls of `incrementWindow` reads the clock.
-/
def recordConnection (minuteNow hourNow : Time) : ConnectionWindows :=
  if limiter.maxPerMinute = 0 && limiter.maxPerHour = 0 then
    windows
  else
    {
      minuteWindows :=
        recordWindow limiter.maxPerMinute Window.minute clientIp minuteNow windows.minuteWindows
      hourWindows := recordWindow limiter.maxPerHour Window.hour clientIp hourNow windows.hourWindows
    }

end ConnectionRateLimiter

/--
The two lengths of windows.
-/
inductive Span where
  | minute
  | hour
  deriving DecidableEq

namespace Span

def period : Span → Int
  | .minute => Window.minute
  | .hour => Window.hour

def limit : Span → ConnectionRateLimiter → Nat
  | .minute => ConnectionRateLimiter.maxPerMinute
  | .hour => ConnectionRateLimiter.maxPerHour

def windows : Span → ConnectionWindows → OrderedMap Bytes Window
  | .minute => ConnectionWindows.minuteWindows
  | .hour => ConnectionWindows.hourWindows

end Span
end SimpleRsyncd
