import ChainDB.CommandLine
import ChainDB.Deployment

/-! The command line client from its arguments to its exit code, and what a user of it sees of a server
that others use at the same time. -/
namespace ChainDB
open Effects Transition

namespace Application

def TIMEOUT_MS : UInt64 := 1000

def makeClient (options : Options) : Client :=
  ⟨options.string .serverAddr,sizeOfInt (options.int .serverPort),
    sizeOfInt (options.int .timeout) * TIMEOUT_MS⟩

def exchanged (calls : Client.Calls) (client : Client) (msg : Bytes) : Option Bytes :=
  Network.value (Client.sendMessage calls client msg ⟨fun _ => 0,[]⟩).1

/- The value is the response that is logged before `true` is returned. -/
def processRequest (sys : Platform) (client : Client) (calls : Client.Calls) (req : IPC.Request) :
    Action IPC.Response := do
  let data ← sys.request.serializeToString req
  let result ← Exec.ofOption (exchanged calls client data)
  Exec.ofOption (sys.response.parseFromString result)

def runCommand (sys : Platform) (options : Options) (calls : Client.Calls) (command : Command) :
    Action IPC.Response := do
  let req ← request sys ⟨options.string .password⟩ command
  processRequest sys (makeClient options) calls req

inductive Exit where
  | code (n : Int)
  | aborted
  deriving DecidableEq, Repr

structure Ending where
  exit : Exit
  shown : Option IPC.Response

def main (sys : Platform) (calls : Client.Calls) (argv : List Bytes) (draws : Draws) : Ending :=
  match initializeOptions argv defaults with
  | (.halt _,_) => ⟨.aborted,none⟩
  | (.absent,_) => ⟨.code (-1),none⟩
  | (.done _,options) =>
    match run options with
    | none => ⟨.code 0,none⟩
    | some command =>
      match (runCommand sys options calls command (start Manager.emptyDirectory draws)).1 with
      | .done resp => ⟨.code 0,some resp⟩
      | _ => ⟨.code (-1),none⟩

section Ending
variable {sys : Platform} {calls : Client.Calls} {client : Client} {options : Options} {command : Command}
  {argv : List Bytes} {draws : Draws}

theorem exchangedIff {msg reply : Bytes} : exchanged calls client msg = some reply ↔
    (calls.ctxNew = true ∧ calls.socket = true ∧ Client.Transmits calls client) ∧
      Client.received calls client = some reply := by
  rw [exchanged,Client.sendMessageRuns]
  split
  · rename_i all
    rw [and_iff_right all]
    cases Client.received calls client <;> rfl
  · rename_i broken
    exact iff_of_false nofun fun both => broken both.1

theorem runCommandDone {w t : World} {resp : IPC.Response} :
    runCommand sys options calls command w = (.done resp,t) ↔
      ∃ msg reply, message sys ⟨options.string .password⟩ command w = (.done msg,t) ∧
        exchanged calls (makeClient options) msg = some reply ∧
        sys.response.parseFromString reply = some resp := by
  simp only [runCommand,processRequest,message,Exec.bindDone,Exec.ofOptionDone]
  constructor
  · rintro ⟨req,u,built,msg,v,serial,reply,_,⟨back,rfl⟩,parsed,rfl⟩
    exact ⟨msg,reply,⟨req,u,built,serial⟩,back,parsed⟩
  · rintro ⟨msg,reply,⟨req,u,built,serial⟩,back,parsed⟩
    exact ⟨req,u,built,msg,t,serial,reply,t,⟨back,rfl⟩,parsed,rfl⟩

inductive Ends (sys : Platform) (calls : Client.Calls) (options : Options) (draws : Draws) :
    Option IPC.Response → Prop where
  | idle (asked : run options = none) : Ends sys calls options draws none
  | answered (command : Command) (msg reply : Bytes) (resp : IPC.Response) (t : World)
      (asked : run options = some command)
      (built : message sys ⟨options.string .password⟩ command (start Manager.emptyDirectory draws) =
        (.done msg,t))
      (connected : calls.ctxNew = true ∧ calls.socket = true ∧
        Client.Transmits calls (makeClient options))
      (back : Client.received calls (makeClient options) = some reply)
      (parsed : sys.response.parseFromString reply = some resp) :
      Ends sys calls options draws (some resp)

inductive Closes (sys : Platform) (calls : Client.Calls) (argv : List Bytes) (draws : Draws) :
    Ending → Prop where
  | thrown (overflows : IApplication.Overflows handlers (argv.drop 1)) :
      Closes sys calls argv draws ⟨.aborted,none⟩
  | refused (fits : ¬ IApplication.Overflows handlers (argv.drop 1))
      (refused : ¬ IApplication.Accepted handlers (argv.drop 1)) :
      Closes sys calls argv draws ⟨.code (-1),none⟩
  | succeeded (options : Options) (shown : Option IPC.Response)
      (accepted : initializeOptions argv defaults = (.done (),options))
      (ends : Ends sys calls options draws shown) : Closes sys calls argv draws ⟨.code 0,shown⟩
  | failed (options : Options) (accepted : initializeOptions argv defaults = (.done (),options))
      (never : ∀ shown, ¬ Ends sys calls options draws shown) :
      Closes sys calls argv draws ⟨.code (-1),none⟩

theorem mainThrown (overflows : IApplication.Overflows handlers (argv.drop 1)) :
    main sys calls argv draws = ⟨.aborted,none⟩ := by
  obtain ⟨e,after,halt⟩ := IApplication.parsePairsHalt.mpr overflows
  have halted : initializeOptions argv defaults = (.halt e,after) := halt
  rw [main,halted]

theorem mainRefused (fits : ¬ IApplication.Overflows handlers (argv.drop 1))
    (refused : ¬ IApplication.Accepted handlers (argv.drop 1)) :
    main sys calls argv draws = ⟨.code (-1),none⟩ := by
  rcases run : initializeOptions argv defaults with ⟨u | _ | e,options⟩
  · exact absurd (IApplication.parsePairsDone run) refused
  · rw [main,run]
  · exact absurd (IApplication.parsePairsHalt.mp ⟨e,options,run⟩) fits

theorem mainEnds (accepted : initializeOptions argv defaults = (.done (),options))
    {shown : Option IPC.Response} (ends : Ends sys calls options draws shown) :
    main sys calls argv draws = ⟨.code 0,shown⟩ := by
  unfold main
  rw [accepted]
  dsimp only
  cases ends with
  | idle asked => rw [asked]
  | answered command msg reply resp t asked built connected back parsed =>
    rw [asked]
    dsimp only
    rw [runCommandDone.mpr ⟨msg,reply,built,exchangedIff.mpr ⟨connected,back⟩,parsed⟩]

theorem mainNever (accepted : initializeOptions argv defaults = (.done (),options))
    (never : ∀ shown, ¬ Ends sys calls options draws shown) :
    main sys calls argv draws = ⟨.code (-1),none⟩ := by
  unfold main
  rw [accepted]
  dsimp only
  cases asked : run options with
  | none => exact absurd (.idle asked) (never none)
  | some command =>
    dsimp only
    cases ran : (runCommand sys options calls command (start Manager.emptyDirectory draws)).1 with
    | done resp =>
      obtain ⟨msg,reply,built,back,parsed⟩ := runCommandDone.mp (Exec.outcomeApply ran)
      obtain ⟨connected,received⟩ := exchangedIff.mp back
      exact absurd (.answered command msg reply resp _ asked built connected received parsed)
        (never (some resp))
    | absent => rfl
    | halt e => rfl

theorem mainCloses (sys : Platform) (calls : Client.Calls) (argv : List Bytes) (draws : Draws) :
    Closes sys calls argv draws (main sys calls argv draws) := by
  by_cases overflows : IApplication.Overflows handlers (argv.drop 1)
  · rw [mainThrown overflows]
    exact .thrown overflows
  by_cases read : IApplication.Accepted handlers (argv.drop 1)
  · obtain ⟨options,accepted⟩ : ∃ options, initializeOptions argv defaults = (.done (),options) :=
      IApplication.parsePairsRuns read defaults
    by_cases well : ∃ shown, Ends sys calls options draws shown
    · obtain ⟨shown,ends⟩ := well
      rw [mainEnds accepted ends]
      exact .succeeded options shown accepted ends
    · have never := not_exists.mp well
      rw [mainNever accepted never]
      exact .failed options accepted never
  · rw [mainRefused overflows read]
    exact .refused overflows read

theorem closesMain {ending : Ending} (closes : Closes sys calls argv draws ending) :
    main sys calls argv draws = ending := by
  cases closes with
  | thrown overflows => exact mainThrown overflows
  | refused fits refused => exact mainRefused fits refused
  | succeeded options shown accepted ends => exact mainEnds accepted ends
  | failed options accepted never => exact mainNever accepted never

end Ending

theorem mainExactly (sys : Platform) (calls : Client.Calls) (argv : List Bytes) (draws : Draws)
    (ending : Ending) : main sys calls argv draws = ending ↔ Closes sys calls argv draws ending :=
  ⟨fun same => same ▸ mainCloses sys calls argv draws,closesMain⟩

section Shared
open Handler Network

def planned : Command → Plan
  | .ping => .reply success
  | .createChain chainId data => dataPlan ⟨chainId,data⟩ (.createChain data) createAnswer
  | .removeChain chainId => .call chainId .removeChain removeAnswer
  | .addBlock chainId data => dataPlan ⟨chainId,data⟩ (.addBlock data) addBlockAnswer
  | .getBlock chainId blockId => .call chainId (.getBlock blockId) getBlockAnswer
  | .getBlocks chainId => .call chainId (.getBlocks []) getBlocksAnswer
  | .verifyChain chainId => .call chainId .verifyChain verifyAnswer
  | .getChainHeader chainId => .call chainId .getChainHeader headerAnswer
  | .getChainKeys chainId => .call chainId .getChainHeader keysAnswer
  | .getChainInfo chainId => .call chainId .getChainInfo (infoAnswer chainId)

/- A server without a password takes everything; one with a password takes no ping at all. -/
def Welcome (sys : Platform) (handler : Handler) (password : Bytes) (command : Command) : Prop :=
  handler.password = [] ∨ command ≠ .ping ∧ passwordHash sys password =
    (sys.sha256 (Handler.PASSWORD_SALT ++ handler.password)).bytes

def refusal (command : Command) : IPC.Response :=
  statusResponse .notAuthorized
    (if command = .ping then ascii "No authorization data" else ascii "Invalid password")

/-- What one command does to the table of the server's chains, and the response to it. -/
inductive Performs (sys : Platform) (handler : Handler) (store : Store) (password : Bytes)
    (command : Command) : IPC.Response → Store → Prop where
  | refused (stranger : ¬ Welcome sys handler password command) :
      Performs sys handler store password command (refusal command) store
  | told (resp : IPC.Response) (welcome : Welcome sys handler password command)
      (plan : planned command = .reply resp) : Performs sys handler store password command resp store
  | called (chainId : UInt64) (operation : Manager.Operation) (answer : Manager.Result → IPC.Response)
      (result : Manager.Result) (view : Option Ledger) (welcome : Welcome sys handler password command)
      (plan : planned command = .call chainId operation answer)
      (behaves : Manager.Behaves sys (handler.manager.chain chainId) (store chainId) operation result
        view) :
      Performs sys handler store password command (answer result) (Function.update store chainId view)

section Sent
variable {sys : Platform} {handler : Handler} {store next : Store} {password msg : Bytes}
  {command : Command} {resp : IPC.Response} {dir : Directory} {draws : Draws} {t : World}

theorem requestPlanned {req : IPC.Request} {app : Application} {w : World}
    (built : request sys app command w = (.done req,t)) : planOf req = planned command := by
  cases command with
  | ping =>
    cases built
    rfl
  | _ =>
    obtain ⟨data,u,_,same⟩ := Exec.bindDone.mp built
    cases same
    rfl

theorem messagePlanned (lawful : sys.request.Lawful) {app : Application}
    (sent : message sys app command (start dir draws) = (.done msg,t)) :
    ∃ req, sys.request.parseFromString msg = some req ∧ planOf req = planned command := by
  obtain ⟨req,u,built,serial⟩ := Exec.bindDone.mp sent
  obtain ⟨rfl,fits⟩ := serialized serial
  exact ⟨req,lawful req fits,requestPlanned built⟩

theorem welcomeIff {req : IPC.Request} (carried : req.authData.map IPC.AuthData.passwordHash =
    if command = .ping then none else some (passwordHash sys password)) :
    Admitted sys handler req ↔ Welcome sys handler password command := by
  rw [Admitted,authorizedIff,carried,Welcome]
  by_cases own : command = .ping
  · simp [own]
  · simp [own]

theorem refusalOfCommand {req : IPC.Request} (carried : req.authData.map IPC.AuthData.passwordHash =
    if command = .ping then none else some (passwordHash sys password)) :
    refusalOf req = refusal command := by
  have same : req.authData = none ↔ command = .ping := by
    rw [← Option.map_eq_none_iff,carried]
    by_cases own : command = .ping <;> simp [own]
  rw [refusalOf,refusal]
  simp only [same]

theorem commandPerforms (lawful : sys.request.Lawful) (hashing : ∀ n, (draws n).ok .hash = true)
    (sent : message sys ⟨password⟩ command (start dir draws) = (.done msg,t))
    (answers : Answers sys handler store msg resp next) :
    Performs sys handler store password command resp next := by
  obtain ⟨req,parsed,carried⟩ := messageDone lawful hashing sent
  obtain ⟨same,again,plan⟩ := messagePlanned lawful sent
  cases parsed.symm.trans again
  cases answers with
  | unparsed none => cases none.symm.trans parsed
  | refused other read stranger =>
    cases read.symm.trans parsed
    rw [refusalOfCommand carried]
    exact .refused fun welcome => stranger ((welcomeIff carried).mpr welcome)
  | told other _ read admitted asked =>
    cases read.symm.trans parsed
    exact .told resp ((welcomeIff carried).mp admitted) (plan.symm.trans asked)
  | called other chainId operation answer result view read admitted asked behaves =>
    cases read.symm.trans parsed
    exact .called chainId operation answer result view ((welcomeIff carried).mp admitted)
      (plan.symm.trans asked) behaves

theorem answeredAt {last : Store} {msgs : List Bytes} {resps : List IPC.Response}
    (all : AnswersAll sys handler store msgs resps last) {place : Nat} (asked : msgs[place]? = some msg)
    (told : resps[place]? = some resp) : ∃ before next,
      AnswersAll sys handler store (msgs.take place) (resps.take place) before ∧
        Answers sys handler before msg resp next ∧
        AnswersAll sys handler next (msgs.drop (place + 1)) (resps.drop (place + 1)) last := by
  induction all generalizing place with
  | nil => cases asked
  | cons step later ih =>
    cases place with
    | zero =>
      cases asked
      cases told
      exact ⟨_,_,.nil _,step,later⟩
    | succ place =>
      obtain ⟨before,next,earlier,here,later⟩ := ih asked told
      exact ⟨before,next,.cons step earlier,here,later⟩

end Sent

structure Typed (sys : Platform) (session : Session) (argv : List Bytes) (draws : Draws) (options : Options)
    (command : Command) : Prop where
  accepted : initializeOptions argv defaults = (.done (),options)
  asked : run options = some command
  hashing : ∀ n, (draws n).ok .hash = true
  sent : (message sys ⟨options.string .password⟩ command (start Manager.emptyDirectory draws)).1 =
    .done session.request
  client : session.client = makeClient options

theorem Typed.main {sys : Platform} {session : Session} {argv : List Bytes} {draws : Draws}
    {options : Options} {command : Command} (typed : Typed sys session argv draws options command)
    {reply : Bytes} {resp : IPC.Response} (back : some reply = returned session)
    (parsed : sys.response.parseFromString reply = some resp) :
    main sys session.calls argv draws = ⟨.code 0,some resp⟩ := by
  have arrived : exchanged session.calls (makeClient options) session.request = some reply := by
    rw [← typed.client]
    exact back.symm
  obtain ⟨connected,received⟩ := exchangedIff.mp arrived
  exact mainEnds typed.accepted (.answered command _ reply resp _ typed.asked
    (Exec.outcomeApply typed.sent) connected received parsed)

/- One table accounts for the whole run. Whatever the other clients do, a command that comes back has done
to the chains of that table what it says, at one place of the order in which the server took the requests,
and its user is shown the table's response at that place. -/
theorem commandsReachLedgers {sys : Platform} (lawfulHeader : sys.header.Lawful)
    (lawfulBlock : sys.block.Lawful) (lawfulRequest : sys.request.Lawful) (lawful : sys.response.Lawful)
    (handler : Handler) (memory : Memory) (bound : Nat) (store : Store)
    (stands : Stands sys handler.manager bound store memory.directory) (labels : List Network.Label)
    (net : State Memory)
    (ran : Transition.run (Network.step (service sys handler)) (opened memory) labels = some net)
    (few : bound + net.requests.length < 2^64 - 1)
    (clean : ∀ handled ∈ history sys handler memory.directory (arrivalsOf memory.future net.requests),
      handled.2.failed = false) :
    ∃ resps last, Consistent sys handler memory store net (bound + net.requests.length) resps last ∧
      ∀ k session reply time, net.session k = some session →
        session.result = some (some reply,time) → ∀ argv draws options command,
        Typed sys session argv draws options command →
        ∃ place before resp next, net.order[place]? = some k ∧ session.began ≤ place ∧ place < time ∧
          resps[place]? = some resp ∧
          AnswersAll sys handler store (net.requests.take place) (resps.take place) before ∧
          Performs sys handler before (options.string .password) command resp next ∧
          AnswersAll sys handler next (net.requests.drop (place + 1)) (resps.drop (place + 1)) last ∧
          main sys session.calls argv draws = ⟨.code 0,some resp⟩ := by
  have linear := (runOrderly ran).linearized
  obtain ⟨resps,last,answers,conveys,ends⟩ :=
    stands.serves lawfulHeader lawfulBlock lawful linear few clean
  have consistent := linearizedConsistent linear answers conveys ends
  refine ⟨resps,last,consistent,?_⟩
  intro k session reply time here result argv draws options command typed
  obtain ⟨place,resp,at_,began,before,asked,told,parsed⟩ :=
    consistent.received k session reply time here result
  obtain ⟨middle,next,earlier,own,later⟩ := answeredAt answers asked told
  have performs := commandPerforms lawfulRequest typed.hashing (Exec.outcomeApply typed.sent) own
  have shown := typed.main (runReturned ran k session (some reply) time here result) parsed
  exact ⟨place,middle,resp,next,at_,began,before,told,earlier,performs,later,shown⟩

def createArgs : List Bytes := ["<path>","--create-chain","true","--password","q"].map ascii

def createOptions : Options := (initializeOptions createArgs defaults).2

theorem createArgsAccepted : initializeOptions createArgs defaults = (.done (),createOptions) :=
  Exec.outcomeApply (by decide +kernel)

def sampleNet : State Memory :=
  (Transition.run (Network.step (service Sample.platform lockedHandler)) (opened sampleMemory)
    sampleCalls).get (by decide +kernel)

def sampleSession : Session := (sampleNet.session 1).get (by decide +kernel)

theorem sampleTyped : Typed Sample.platform sampleSession createArgs (Sample.steady 1) createOptions
    (.createChain 1 (ascii "\x7b\x7d")) :=
  ⟨createArgsAccepted,by decide +kernel,fun _ => rfl,by decide +kernel,by decide +kernel⟩

theorem sampleCommandReaches : ∃ resps last,
    Consistent Sample.platform lockedHandler sampleMemory (fun _ => none) sampleNet
      (0 + sampleNet.requests.length) resps last ∧
    ∃ place before resp next, sampleNet.order[place]? = some 1 ∧ sampleSession.began ≤ place ∧
      place < 1 ∧
      resps[place]? = some resp ∧
      AnswersAll Sample.platform lockedHandler (fun _ => none) (sampleNet.requests.take place)
        (resps.take place) before ∧
      Performs Sample.platform lockedHandler before (createOptions.string .password)
        (.createChain 1 (ascii "\x7b\x7d")) resp next ∧
      AnswersAll Sample.platform lockedHandler next (sampleNet.requests.drop (place + 1))
        (resps.drop (place + 1)) last ∧
      main Sample.platform sampleSession.calls createArgs (Sample.steady 1) = ⟨.code 0,some resp⟩ := by
  obtain ⟨resps,last,consistent,each⟩ := commandsReachLedgers Sample.headerLawful Sample.blockLawful
    Sample.requestLawful (wireLawful IPC.Response.schemaSound) lockedHandler sampleMemory 0
    (fun _ => none) (fun _ => ⟨0,Nat.le_refl 0,rfl⟩) sampleCalls sampleNet (Option.some_get _).symm
    (by decide +kernel) (by decide +kernel)
  exact ⟨resps,last,consistent,each 1 sampleSession (Sample.platform.response.encode success) 1
    (Option.some_get _).symm (by decide +kernel) createArgs (Sample.steady 1) createOptions
    (.createChain 1 (ascii "\x7b\x7d")) sampleTyped⟩

end Shared
end Application
end ChainDB
