import MarketDesk.Book.Cells
import MarketDesk.Book.Shared
import MarketDesk.Demo
import MarketDesk.History.Cells
import MarketDesk.History.Panel
import MarketDesk.Log
import MarketDesk.Notice.Bus
import MarketDesk.Settings.Keeper

/-!
The demonstration on the console. It feeds the demonstration market into a shared book, prints the
book after each snapshot, prints the orders, asks to cancel the first of them and one that does not
exist, and logs what it does. A session is the printed text and the log lines; it breaks off when
something cannot be printed.
-/

namespace MarketDesk.Console

/-- What a session has printed and logged. -/
structure Session where
  printed : String := ""
  log : List LogLine := []
  broken : Bool := false
deriving DecidableEq

namespace Session

/-- Prints a line. -/
def print (s : Session) (line : String) : Session :=
  { s with printed := s.printed ++ line ++ "\n" }

/-- Writes a line to the log. -/
def record (s : Session) (line : LogLine) : Session :=
  { s with log := s.log ++ [line] }

/-- Breaks the session off. -/
def halt (s : Session) : Session := { s with broken := true }

end Session

/-! ## Log lines -/

def mainPlace : String := "money_matcher"

def bookPlace : String := "money_matcher::orderbook::view_model"

def historyPlace : String := "money_matcher::history::view_model"

def optionText (a : Option Decimal) : String :=
  match a with
  | some d => "Some(" ++ d.toText ++ ")"
  | none => "None"

/-- What is logged about a book that shows another snapshot. -/
def bookLine (b : Book) : LogLine where
  level := .debug
  place := bookPlace
  message :=
    "order book snapshot #" ++ Text.ofNat b.updates ++ ": " ++
      Text.ofNat b.snapshot.asks.length ++ " asks, " ++
      Text.ofNat b.snapshot.bids.length ++ " bids, mid " ++ optionText b.mid ++
      ", direction " ++ b.direction.title

/-- What is logged about a request to cancel. -/
def cancelLine (id : String) : History.CancelOutcome → LogLine
  | .requested _ => ⟨.debug, historyPlace, "cancel requested for order " ++ id⟩
  | .stale => ⟨.warn, historyPlace, "cancel requested for unknown order " ++ id ++ ", ignoring"⟩
  | .notCancelable status =>
    ⟨.warn, historyPlace,
      "cancel requested for order " ++ id ++ " in status " ++ status.text ++ ", ignoring"⟩

/-! ## Subscribers -/

/-- Logs all events. -/
def logger : Subscription := { id := "log", topic := none }

/-- Prints the requests to cancel. -/
def desk : Subscription := { id := "desk", topic := some "CancelRequested" }

/-- What a subscriber does about an event. -/
def note (s : Session) : Note → Session
  | .event id e =>
    if id = logger.id then
      s.record ⟨.info, mainPlace, "[" ++ e.source ++ "] " ++ e.topic⟩
    else match e.notice with
      | .cancelRequested order => s.print (">> cancel signalled for order " ++ order)
      | _ => s
  | .delivered _ _ => s

/-- A session with the bus that its panels publish to. -/
structure Scene where
  session : Session := {}
  bus : Bus := {}

/-- Goes on with another session. -/
def Scene.goOn (scene : Scene) (f : Session → Session) : Scene :=
  { scene with session := f scene.session }

/-- Publishes events one after another. -/
def Scene.publish (scene : Scene) : List Event → Scene
  | [] => scene
  | e :: rest =>
    let p := scene.bus.publish e
    publish ⟨p.notes.foldl note scene.session, p.bus⟩ rest

/-! ## Printing -/

/-- A text at the right end of a column of twelve characters. -/
def right (s : String) : String :=
  String.ofList (List.replicate (12 - s.length) ' ') ++ s

/-- A text at the left end of a column of ten characters. -/
def left (s : String) : String :=
  s ++ String.ofList (List.replicate (10 - s.length) ' ')

/-- A bar of ten signs for a full row. -/
def bar (depth : Float) : String :=
  String.ofList (List.replicate (depth * 10.0).round.toUInt64.toNat '#')

/-- Three cells in their columns. -/
def columns (cells : List String) : String :=
  " ".intercalate (cells.map right)

/-- The printed line of a row of the book. -/
def rowLine? (settings : BookSettings) (r : Row) : Option String :=
  (r.cells? settings).map fun cells =>
    columns cells ++ "   " ++ left (bar r.depth) ++ " " ++ r.kind.name

/-- Prints lines up to the first one that cannot be made, which breaks the session. -/
def printAll (s : Session) : List (Option String) → Session
  | [] => s
  | some line :: rest => printAll (s.print line) rest
  | none :: _ => s.halt

/-- Prints a book. -/
def printBook (settings : BookSettings) (s : Session) (b : Book) : Session :=
  let heading := "\n" ++ columns (BookColumn.all.map BookColumn.header) ++
    "   depth   (direction: " ++ b.direction.title ++ ")"
  let s := s.print heading
  match b.rows? with
  | none => s.halt
  | some rows => printAll s (rows.map (rowLine? settings))

/-- Prints the visible orders. -/
def printHistory (settings : HistorySettings) (s : Session) (h : History) : Session :=
  let join := " | ".intercalate
  printAll (s.print ("\n" ++ join (HistoryColumn.all.map HistoryColumn.header)))
    (h.rows.map fun o => (o.cells? settings).map join)

/-- An answer to a request to cancel as it is printed. -/
def cancelText : History.CancelOutcome → String
  | .requested id => "Requested \x7b order_id: " ++ Text.quoted id ++ " \x7d"
  | .stale => "Stale"
  | .notCancelable (.other s) =>
    "NotCancelable \x7b status: Other(" ++ Text.quoted s ++ ") \x7d"
  | .notCancelable s => "NotCancelable \x7b status: " ++ s.caseName ++ " \x7d"

/-! ## The session -/

/-- How far the market moves from one snapshot to the next. -/
def offsets : List Int := [0, 1, 1, -1, 2]

/-- The subscribers of the demonstration leave the book alone. -/
def bystanders : SharedBook.Handler := SharedBook.Conduct.done.run

/-- Shows the market at the given offsets and prints the book after each change. -/
def showMarket (settings : BookSettings) : Session → SharedBook → List Int → Scene
  | s, book, [] => ⟨s, book.bus⟩
  | s, book, offset :: rest =>
    if s.broken then ⟨s, book.bus⟩
    else match Demo.snapshot offset settings.maxLevels with
      | .done snapshot =>
        let step := book.apply snapshot bystanders
        match step.outcome with
        | .done () =>
          let logged := s.record (bookLine step.swap.book)
          let told := step.notes.foldl note logged
          showMarket settings (printBook settings told step.book.read) step.book rest
        | _ => ⟨s.halt, step.book.bus⟩
      | _ => ⟨s.halt, book.bus⟩

/-- Asks to cancel an order and prints the answer. -/
def askCancel (h : History) (scene : Scene) (id : String) : Scene :=
  let (answer, events) := h.cancel id
  let logged := scene.goOn fun s => s.record (cancelLine id answer)
  (logged.publish events).goOn fun s => s.print (cancelText answer)

/-- Prints the orders and asks to cancel two of them. -/
def showOrders (settings : HistorySettings) (scene : Scene) : Scene :=
  let h := ((History.ofOrders Demo.orders).withFilter settings.defaultFilter).announcing
  let scene := scene.goOn fun s => printHistory settings s h
  if scene.session.broken then scene
  else
    let ids := (h.rows.head?.map Order.id).toList ++ ["does-not-exist"]
    ids.foldl (askCancel h) scene

/-- The last line of the log. -/
def statsLine (n : BusStats) : LogLine :=
  ⟨.info, mainPlace,
    "notifier: " ++ Text.ofNat n.published ++ " published, " ++ Text.ofNat n.deliveries ++
      " delivered, " ++ Text.ofNat n.errors ++ " handler errors"⟩

/-- The whole session. -/
def session (settings : Settings) : Session :=
  let greeting : Session := {
    log := [⟨.info, mainPlace, settings.system.name ++ " v" ++ settings.system.version ++
      " starting"⟩] }
  let bus := (({} : Bus).subscribe logger).subscribe desk
  match Book.new settings.book.maxLevels with
  | .done book =>
    let scene := showMarket settings.book greeting ⟨book.announcing, bus⟩ offsets
    if scene.session.broken then scene.session
    else
      let scene := showOrders settings.history scene
      if scene.session.broken then scene.session
      else scene.session.record (statsLine scene.bus.stats)
  | _ => greeting.halt

/-! ## The command -/

/-- What the command is called with. -/
structure Call where
  /-- Its arguments: the path of the settings file, if any. -/
  arguments : List String
  /-- Rules of logging that go before the settings. -/
  logRules : Option String

/-- What the command leaves behind. -/
structure Report where
  printed : String
  /-- Warnings about the rules of the call, and the log lines that could not be written to the log
  file. -/
  complaints : List String
  disk : Disk
  broken : Bool

/-- The path of the settings file. -/
def settingsPath (arguments : List String) : String :=
  arguments.head?.getD Keeper.defaultPath

/-- The log lines that the settings and the rules of the call show. -/
def shownLog (settings : LogSettings) (rules : Option String) (s : Session) : List String :=
  let level := settings.level?.getD .info
  let rules := LogRule.combined level (LogRule.ofList (rules.getD ""))
  (s.log.filter (LogLine.isShown rules)).map LogLine.toText

/-- Runs the command on a disk. The log goes behind what the log file holds, or to the complaints if
there can be no such file. -/
def run (call : Call) (d : Disk) : Report :=
  let keeper := (Keeper.ofPath (settingsPath call.arguments)).loadOrDefault d
  let settings := keeper.settings
  let s := session settings
  let lines := shownLog settings.logging call.logRules s
  let warnings := LogRule.warnings (call.logRules.getD "")
  match d.append? settings.logging.file (String.join (lines.map (· ++ "\n"))) with
  | some d => ⟨s.printed, warnings, d, s.broken⟩
  | none => ⟨s.printed, warnings ++ lines, d, s.broken⟩

end MarketDesk.Console
