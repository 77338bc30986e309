import PubNubCore.Lib.Chain
import PubNubCore.Lib.Machine

/-!
# Logger managers

`core/pbcc_logger_manager.c`.  Every context has a manager with a default logger of its own and an
intrusive list of the loggers which the user has registered; the `next` pointers lie in the loggers
and are written by every manager a logger is registered with.

Beside its list a manager keeps what the user may expect it to be, `registered`.  No function looks
at it.
-/

namespace PubNub

/-- `enum pubnub_log_level`. -/
inductive PubnubLogLevel
  | trace | debug | info | warning | error | none
  deriving DecidableEq, Repr

/-- `struct pubnub_logger_interface`: which of its functions are there. -/
structure PubnubLoggerInterface where
  trace : Bool
  debug : Bool
  info : Bool
  warn : Bool
  error : Bool
  deriving DecidableEq, Repr

/-- The function for a level is there. -/
def PubnubLoggerInterface.takes (vtable : PubnubLoggerInterface) : PubnubLogLevel → Bool
  | .trace => vtable.trace
  | .debug => vtable.debug
  | .info => vtable.info
  | .warning => vtable.warn
  | .error => vtable.error
  | .none => false

/-- `struct pubnub_logger`. -/
structure PubnubLogger where
  vtable : Option PubnubLoggerInterface
  next : Option Nat
  deriving DecidableEq, Repr

/-- The logger is told about messages of the level. -/
def PubnubLogger.takes (level : PubnubLogLevel) (logger : PubnubLogger) : Bool :=
  logger.vtable.any (·.takes level)

/-- `struct pbcc_logger_manager`, and the loggers that are registered with it, newest first. -/
structure PbccLoggerManager where
  defaultLogger : Option PubnubLogger
  loggers : Option Nat
  registered : List Nat
  deriving DecidableEq, Repr

/-- Who is told about a message. -/
inductive LogRecipient
  | defaultLogger
  | logger (l : Nat)
  deriving DecidableEq, Repr

/-- The loggers that have been allocated, and the managers of the contexts. -/
structure LoggerState (n : Nat) where
  objects : List PubnubLogger
  managers : Fin n → PbccLoggerManager

/-- `PUBNUB_USE_DEFAULT_LOGGER`, and what `pubnub_default_logger_alloc` returns to each context. -/
structure LoggerConfig (n : Nat) where
  useDefaultLogger : Bool
  defaultLoggerAlloc : Fin n → Option PubnubLoggerInterface

namespace LoggerState

variable {n : Nat} (s : LoggerState n) (m : Fin n) (l : Nat)

/-- `logger->next`. -/
def next (a : Nat) : Option Nat := s.objects[a]?.bind (·.next)

/-- A list that is longer than there are loggers has no end. -/
def limit : Nat := s.objects.length + 1

/-- Writes `logger->next`. -/
def setNext (a : Nat) (p : Option Nat) : LoggerState n :=
  { s with objects := s.objects.modify a fun logger => { logger with next := p } }

/-- Writes `manager->loggers`, and lets the default logger go before it. -/
def setLoggers (p : Option Nat) : LoggerState n :=
  let manager : PbccLoggerManager :=
    { s.managers m with
      defaultLogger := (s.managers m).defaultLogger.map fun logger => { logger with next := p }
      loggers := p }
  { s with managers := Function.update s.managers m manager }

/-- `pubnub_logger_alloc`. -/
def pubnubLoggerAlloc (vtable : PubnubLoggerInterface) : LoggerState n :=
  { s with objects := s.objects ++ [⟨vtable, none⟩] }

/-- `pbcc_logger_manager_logger_add`; `none` if it does not return. -/
def loggerAdd : Option (LoggerState n × Int) :=
  match locate s.next l s.limit .first (s.managers m).loggers with
  | none => none
  | some .absent => some ((s.setNext l (s.managers m).loggers).setLoggers m (some l), 0)
  | some _ => some (s, -1)

/-- `pbcc_logger_manager_logger_remove`; `none` if it does not return. -/
def loggerRemove : Option (LoggerState n × Int) :=
  match locate s.next l s.limit .first (s.managers m).loggers with
  | none => none
  | some .absent => some (s, -1)
  | some .first => some ((s.setNext l none).setLoggers m (s.next l), 0)
  | some (.after previous) =>
      some (((s.setNext previous (s.next l)).setNext l none).setLoggers m (s.managers m).loggers, 0)

/-- `pbcc_logger_manager_logger_remove_all`. -/
def loggerRemoveAll : LoggerState n := s.setLoggers m none

/-- The logger is told about messages of the level. -/
def takes (level : PubnubLogLevel) : Bool := s.objects[l]?.any (·.takes level)

/-- The loop of `pbcc_logger_manager_log_message` from a logger of the user on. -/
def logToLoggers (level : PubnubLogLevel) (p : Option Nat) : Option (List LogRecipient) :=
  (follow s.next s.limit p).map fun ls =>
    (ls.filter fun l => s.takes l level).map LogRecipient.logger

/-- `pbcc_logger_manager_log_message`; `none` if it does not return. -/
def logMessage (config : LoggerConfig n) (level : PubnubLogLevel) : Option (List LogRecipient) :=
  if config.useDefaultLogger then
    match (s.managers m).defaultLogger with
    | none => some []
    | some logger =>
        (s.logToLoggers level logger.next).map fun told =>
          if logger.takes level then .defaultLogger :: told else told
  else s.logToLoggers level (s.managers m).loggers

/-! ## What is registered -/

/-- The user registers or removes a logger. -/
def setRegistered (registered : List Nat) : LoggerState n :=
  let manager : PbccLoggerManager := { s.managers m with registered := registered }
  { s with managers := Function.update s.managers m manager }

/-- Who is to be told: the default logger, and every logger that is registered. -/
def toTell (config : LoggerConfig n) (level : PubnubLogLevel) : List LogRecipient :=
  (if config.useDefaultLogger && (s.managers m).defaultLogger.any (·.takes level)
    then [.defaultLogger] else []) ++
    ((s.managers m).registered.filter fun l => s.takes l level).map LogRecipient.logger

end LoggerState

/-! ## Calls -/

/-- A call of the user; loggers are named by the order of their allocation. -/
inductive LoggerCall (n : Nat)
  | loggerAlloc (vtable : PubnubLoggerInterface)
  | loggerAdd (m : Fin n) (l : Nat)
  | loggerRemove (m : Fin n) (l : Nat)
  | loggerRemoveAll (m : Fin n)
  | logMessage (m : Fin n) (level : PubnubLogLevel)

/-- The manager on which a call is made. -/
def LoggerCall.manager {n : Nat} : LoggerCall n → Option (Fin n)
  | .loggerAlloc _ => none
  | .loggerAdd m _ | .loggerRemove m _ | .loggerRemoveAll m | .logMessage m _ => some m

/-- The contexts when nothing is registered yet. -/
def LoggerState.init {n : Nat} (config : LoggerConfig n) : LoggerState n where
  objects := []
  managers m :=
    { defaultLogger :=
        if config.useDefaultLogger then (config.defaultLoggerAlloc m).map fun vtable => ⟨vtable, none⟩
        else none
      loggers := none
      registered := [] }

/-- One call.  A call that does not return allows no step, and neither does one with a logger that
    has not been allocated. -/
def loggerStep {n : Nat} (config : LoggerConfig n) (s : LoggerState n) :
    LoggerCall n → Option (LoggerState n)
  | .loggerAlloc vtable => some (s.pubnubLoggerAlloc vtable)
  | .loggerAdd m l =>
      if l < s.objects.length then
        (s.loggerAdd m l).map fun r => r.1.setRegistered m
          (if l ∈ (s.managers m).registered then (s.managers m).registered
            else l :: (s.managers m).registered)
      else none
  | .loggerRemove m l =>
      if l < s.objects.length then
        (s.loggerRemove m l).map fun r => r.1.setRegistered m ((s.managers m).registered.erase l)
      else none
  | .loggerRemoveAll m => some ((s.loggerRemoveAll m).setRegistered m [])
  | .logMessage m level => (s.logMessage m config level).map fun _ => s

/-- The managers. -/
def loggerManagers {n : Nat} (config : LoggerConfig n) : Machine (LoggerState n) (LoggerCall n) :=
  ⟨LoggerState.init config, loggerStep config⟩

end PubNub
