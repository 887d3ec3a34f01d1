import Tariff.Proofs.Formatting
import Tariff.Proofs.HalfwayTexts
import Tariff.Proofs.NegativeZeros
import Tariff.Proofs.Price.Badges
import Tariff.Proofs.Quota.ShownQuota
import Tariff.Proofs.RoundedTexts
import Tariff.Proofs.Settings.FailedDelete
import Tariff.Proofs.Settings.ListedKeys
import Tariff.Proofs.Settings.LoadedRules
import Tariff.Proofs.Settings.Reloading
import Tariff.Proofs.Settings.SavedRules
import Tariff.Proofs.Settings.SharedFile
import Tariff.Proofs.Settings.StoredRates
import Tariff.Proofs.Settings.TypedValues
import Tariff.Proofs.TopUp.ChargeOrder
import Tariff.Proofs.TopUp.ClampedCharges
import Tariff.Proofs.TopUp.UsableMembers
import Tariff.Proofs.TrimmedTexts
import Tariff.Proofs.Usage.GroupDiscounts
import Tariff.Proofs.Usage.IntegerTexts
import Tariff.Proofs.Usage.RecordedDetails
import Tariff.Proofs.Usage.SavedPercentages
import Tariff.Proofs.Settings.OtherVariables
import Tariff.Proofs.Quota.RecoveredQuota
import Tariff.Proofs.TopUp.TypedAmounts
import Tariff.Proofs.TopUp.WrittenChannels
