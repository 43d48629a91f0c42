import Mevacoin.Emission
import Mevacoin.Premine.Reorg
import Mevacoin.Premine.Signers
import Mevacoin.Premine.Rejection
import Mevacoin.Premine.Solvency
import Mevacoin.Trust.ClockIndependence
import Mevacoin.Trust.SampleOwnership
import Mevacoin.Trust.SignatureReplay
import Mevacoin.Trust.ExpiredPurchases
import Mevacoin.Trust.SampleReorg
import Mevacoin.Trust.StoreReorg
import Mevacoin.Trust.SamplePruning
import Mevacoin.Trust.SignedMessages
import Mevacoin.Trust.WelcomeTable
import Mevacoin.Trust.PayoutRule
import Mevacoin.Trust.CoinbaseConservation
import Mevacoin.Trust.RootVerification
import Mevacoin.Trust.Expiry
import Mevacoin.Trust.SampleFiles
import Mevacoin.Trust.Suspension
import Mevacoin.Trust.VoteWindows
import Mevacoin.Availability.Answers
import Mevacoin.Availability.Impostors
import Mevacoin.Availability.Silence
import Mevacoin.Availability.Limits
import Mevacoin.Availability.Starvation
import Mevacoin.Frost.PoolSplit
