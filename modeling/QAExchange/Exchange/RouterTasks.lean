import QAExchange.Exchange.OrderRouter
import QAExchange.Foundation.Interleaving

/-! # Calls of the router side by side

A call releases the lock of the book between the book's answer and the handling
of its results, so the steps of several calls interleave. A `Task` is a call at
the point it has reached. Alone, its steps make up the call.
-/

namespace QAExchange.OrderRouter

open Foundation Action

variable {Q : Qars}

inductive Call
  | submit (req : SubmitOrderRequest)
  | cancel (req : CancelOrderRequest)

inductive Task
  | submitting (req : SubmitOrderRequest) (force : Bool)
  | checkingFok (ticket : Ticket)
  | placing (ticket : Ticket)
  | booking (placement : Placement)
  | matching (placement : Placement) (handled : Handled) (results : List OrderProcessingResult)
  | closing (placement : Placement)
  | cancelling (req : CancelOrderRequest)
  | withdrawing (withdrawal : Withdrawal)
  | settling (withdrawal : Withdrawal) (results : List OrderProcessingResult)
  | done

def Call.task : Call → Task
  | .submit req => .submitting req false
  | .cancel req => .cancelling req

/-- The task that goes on after an action, if the action succeeds. -/
def proceed (next : α → Task) (result : Except ε α × OrderRouter Q) : Task × OrderRouter Q :=
  match result with
  | (.ok value, router) => (next value, router)
  | (.error _, router) => (.done, router)

/-- As `proceed`, for the steps after whose failure the order is marked. -/
def proceedRouting (placement : Placement) (next : α → Task)
    (result : Except ε α × OrderRouter Q) : Task × OrderRouter Q :=
  match result with
  | (.ok value, router) => (next value, router)
  | (.error _, router) => (.done, modifyRoute placement.orderId markRejected router)

def advance (now : Now) (router : OrderRouter Q) : Task → Task × OrderRouter Q
  | .submitting req force => proceed .checkingFok (exec (screen now req force) router)
  | .checkingFok ticket => proceed (fun _ => .placing ticket) (exec (checkFok ticket) router)
  | .placing ticket => proceed .booking (exec (place now ticket) router)
  | .booking placement =>
    proceedRouting placement (.matching placement Handled.none)
      (exec (bookOrder now placement) router)
  | .matching placement _ [] => (.closing placement, router)
  | .matching placement handled (result :: results) =>
    proceedRouting placement (fun handled => .matching placement handled results)
      (exec (processResult now placement.orderId placement.order handled result) router)
  | .closing placement =>
    if placement.req.timeCond = .IOC then
      match router.iocRemaining placement.orderId with
      | some _ => (.cancelling ⟨placement.req.accountId, placement.orderId⟩, router)
      | none => (.done, router)
    else (.done, router)
  | .cancelling req => proceed .withdrawing (exec (checkCancel now req) router)
  | .withdrawing withdrawal => proceed (.settling withdrawal) (exec (bookCancel withdrawal) router)
  | .settling _ [] => (.done, router)
  | .settling withdrawal (result :: results) =>
    proceed (fun _ => .settling withdrawal results)
      (exec (processCancelResult now withdrawal result) router)
  | .done => (.done, router)

def service (Q : Qars) : Service (OrderRouter Q) Task Call Now where
  start := Call.task
  advance := advance

def perform (now : Now) (router : OrderRouter Q) : Call → OrderRouter Q
  | .submit req => (submitOrder now req router).2
  | .cancel req => (exec (cancelOrder now req) router).2

/-- Calls one after the other. -/
def runCalls (calls : List (Now × Call)) (router : OrderRouter Q) : OrderRouter Q :=
  calls.foldl (fun router call => perform call.1 router call.2) router

/-! ## A call alone -/

theorem solo_settling (now : Now) (withdrawal : Withdrawal)
    (results : List OrderProcessingResult) (router : OrderRouter Q) :
    (service Q).Solo (.settling withdrawal results, router)
      (.done, (exec (processCancelResults now withdrawal results) router).2) := by
  induction results generalizing router with
  | nil => exact Service.Solo.head _ now .refl
  | cons result results induction =>
    refine Service.Solo.head _ now ?_
    rw [processCancelResults, List.foldlM_cons, exec_bind]
    rcases ran : exec (processCancelResult now withdrawal result) router with ⟨_ | _, after⟩
    · have moved : (service Q).advance now router (.settling withdrawal (result :: results)) =
          (.done, after) := by
        simp only [service, advance, ran, proceed]
      rw [moved]
      exact .refl
    · have moved : (service Q).advance now router (.settling withdrawal (result :: results)) =
          (.settling withdrawal results, after) := by
        simp only [service, advance, ran, proceed]
      rw [moved]
      exact induction after

theorem solo_cancelling (now : Now) (req : CancelOrderRequest) (router : OrderRouter Q) :
    (service Q).Solo (.cancelling req, router)
      (.done, (exec (cancelOrder now req) router).2) := by
  refine Service.Solo.head _ now ?_
  rw [cancelOrder, exec_bind]
  simp only [service, advance]
  rcases exec (checkCancel now req) router with ⟨_ | withdrawal, checked⟩
  · exact .refl
  · refine Service.Solo.head _ now ?_
    simp only [advance, exec_bind]
    rcases exec (bookCancel withdrawal) checked with ⟨_ | results, booked⟩
    · exact .refl
    · exact solo_settling now withdrawal results booked

theorem solo_closing (now : Now) (placement : Placement) (router : OrderRouter Q) :
    (service Q).Solo (.closing placement, router) (.done, (finish now placement router).2) := by
  refine Service.Solo.head _ now ?_
  simp only [service, advance, finish]
  split_ifs
  · simp only [handleIocRemaining, exec_bind, exec_read]
    cases router.iocRemaining placement.orderId with
    | none => exact .refl
    | some remaining => exact solo_cancelling now _ router
  · exact .refl

theorem solo_matching (now : Now) (placement : Placement) (results : List OrderProcessingResult)
    (handled : Handled) (router : OrderRouter Q) :
    (service Q).Solo (.matching placement handled results, router)
      (proceedRouting placement (fun _ => .closing placement)
        (exec (results.foldlM (processResult now placement.orderId placement.order) handled)
          router)) := by
  induction results generalizing handled router with
  | nil => exact Service.Solo.head _ now .refl
  | cons result results induction =>
    refine Service.Solo.head _ now ?_
    rw [List.foldlM_cons, exec_bind]
    rcases ran : exec (processResult now placement.orderId placement.order handled result)
      router with ⟨_ | handled', after⟩
    · have moved : (service Q).advance now router
          (.matching placement handled (result :: results)) =
          (.done, modifyRoute placement.orderId markRejected after) := by
        simp only [service, advance, ran, proceedRouting]
      rw [moved]
      exact .refl
    · have moved : (service Q).advance now router
          (.matching placement handled (result :: results)) =
          (.matching placement handled' results, after) := by
        simp only [service, advance, ran, proceedRouting]
      rw [moved]
      exact induction handled' after

theorem solo_booked {now : Now} {placement : Placement} {router booked : OrderRouter Q}
    {results : List OrderProcessingResult}
    (ran : exec (bookOrder now placement) router = (.ok results, booked)) :
    (service Q).Solo (.booking placement, router)
      (proceedRouting placement (fun _ => .closing placement)
        (exec (processMatchingResults now placement.orderId placement.order results) booked)) := by
  refine Service.Solo.head _ now ?_
  simp only [service, advance, ran, proceedRouting]
  refine (solo_matching now placement results Handled.none booked).trans ?_
  simp only [processMatchingResults, exec_bind]
  rcases exec (results.foldlM (processResult now placement.orderId placement.order)
    Handled.none) booked with ⟨_ | handled, after⟩
  · exact .refl
  · exact .refl

theorem solo_booking (now : Now) (placement : Placement) (router : OrderRouter Q) :
    (service Q).Solo (.booking placement, router) (.done, (route now placement router).2) := by
  simp only [route, routeToMatchingEngine, exec_bind]
  rcases ran : exec (bookOrder now placement) router with ⟨_ | results, booked⟩
  · refine Service.Solo.head _ now ?_
    simp only [service, advance, ran, proceedRouting]
    exact .refl
  · refine (solo_booked ran).trans ?_
    dsimp only
    rcases handled : exec (processMatchingResults now placement.orderId placement.order results)
      booked with ⟨_ | _, after⟩
    · exact .refl
    · exact solo_closing now placement after

theorem solo_placed (ran : exec (admitTicket now req force) router = (.ok ticket, admitted))
    (placed : exec (place now ticket) admitted = (.ok placement, frozen)) :
    (service Q).Solo (.submitting req force, router) (.booking placement, frozen) := by
  refine Service.Solo.head _ now ?_
  rw [admitTicket, exec_bind] at ran
  simp only [service, advance]
  rcases screened : exec (screen now req force) router with ⟨_ | screenedTicket, afterScreen⟩ <;>
    simp only [screened, exec_bind] at ran
  · cases ran
  refine Service.Solo.head _ now ?_
  simp only [advance]
  rcases checked : exec (checkFok screenedTicket) afterScreen with ⟨_ | _, afterCheck⟩ <;>
    simp only [checked] at ran
  · cases ran
  cases ran
  refine Service.Solo.head _ now ?_
  simp only [advance, placed]
  exact .refl

theorem solo_submitting (now : Now) (req : SubmitOrderRequest) (force : Bool)
    (router : OrderRouter Q) : (service Q).Solo (.submitting req force, router)
      (.done, (submitOrderWithOptions now req force router).2) := by
  refine Service.Solo.head _ now ?_
  simp only [service, advance, submitOrderWithOptions, admitTicket, exec_bind]
  rcases exec (screen now req force) router with ⟨_ | ticket, screened⟩
  · exact .refl
  refine Service.Solo.head _ now ?_
  simp only [advance]
  rcases exec (checkFok ticket) screened with ⟨_ | _, checked⟩
  · exact .refl
  refine Service.Solo.head _ now ?_
  simp only [advance, exec_pure]
  rcases exec (place now ticket) checked with ⟨_ | placement, frozen⟩
  · exact .refl
  · exact solo_booking now placement frozen

theorem solo_perform (now : Now) (router : OrderRouter Q) (call : Call) :
    (service Q).Solo (call.task, router) (.done, perform now router call) := by
  cases call with
  | submit req => exact solo_submitting now req false router
  | cancel req => exact solo_cancelling now req router

end QAExchange.OrderRouter
