import TrivialInit.State

/-!
# SignalMixin — setting up signal handling

`execute(SignalSetup)` of `signal_handler.hpp`.  Reading the signals is part of the main program.
-/

namespace TrivialInit

/-- The answers of the system to `execute(SignalSetup)`: the text of `errno` when a call fails, and
the new descriptor with its open file description. -/
structure SignalSetupAnswers where
  sigprocmask : Option String := none
  signalfd : Except String (Int × Nat)
  epollCreate : Except String (Int × Nat)

namespace InitSystem

/-- `execute(SignalSetup)`: the value it returns, and the object. -/
def executeSignalSetup (s : InitSystem) (os : SignalSetupAnswers) : Int × InitSystem :=
  let s := s.log .info "signal" "Setting up signal handling"
  match os.sigprocmask with
  | some reason => (1, s.log .crit "signal" s!"sigprocmask: {reason}")
  | none =>
      match os.signalfd with
      | .error reason => (1, s.log .crit "signal" s!"signalfd: {reason}")
      | .ok (signalFd, signals) =>
          let s := { s with fds := s.fds.install signalFd signals }
          match os.epollCreate with
          | .error reason => (1, s.log .crit "signal" s!"epoll_create1: {reason}")
          | .ok (epollFd, epoll) =>
              let s := { s with fds := s.fds.install epollFd epoll }
              (0, s.log .info "signal" "Signal handling ready (signalfd + epoll)")

end InitSystem

end TrivialInit
