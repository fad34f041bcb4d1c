import MarketDesk.Main
import MarketDesk.Proofs.Decimal.Quotient
import MarketDesk.Proofs.Decimal.Sum
import MarketDesk.Proofs.Book.Coherence
import MarketDesk.Proofs.Book.MidLog
import MarketDesk.Proofs.Book.MidRange
import MarketDesk.Proofs.Book.Swap
import MarketDesk.Proofs.Book.Trace
import MarketDesk.Proofs.Book.Chronicle
import MarketDesk.Proofs.Book.Readers
import MarketDesk.Proofs.Book.Refusal
import MarketDesk.Proofs.Book.Renewal
import MarketDesk.Proofs.Book.Sharing
import MarketDesk.Proofs.History.KeyOrder
import MarketDesk.Proofs.History.Arrangement
import MarketDesk.Proofs.History.Rows
import MarketDesk.Proofs.Book.Announcement
import MarketDesk.Proofs.History.Announcement
import MarketDesk.Proofs.History.Cancellation
import MarketDesk.Proofs.Book.Room
import MarketDesk.Proofs.Notice.Delivery
import MarketDesk.Proofs.Settings.Saving
import MarketDesk.Proofs.History.Tabs
import MarketDesk.Proofs.Book.Rows
import MarketDesk.Proofs.Book.Feed
import MarketDesk.Proofs.History.Wire
import MarketDesk.Proofs.Decimal.Order
import MarketDesk.Proofs.Book.Shares
import MarketDesk.Proofs.Book.Preparation
import MarketDesk.Proofs.Book.Best
import MarketDesk.Proofs.Book.Exact
import MarketDesk.Proofs.Decimal.Fixed
import MarketDesk.Proofs.Book.Cells
import MarketDesk.Proofs.History.Cells
import MarketDesk.Proofs.Demo
