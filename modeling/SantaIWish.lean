import SantaIWish.Library.Runs
import SantaIWish.Library.Simulation
import SantaIWish.Library.Replay
import SantaIWish.Library.PathWrites
import SantaIWish.Library.Reorder
import SantaIWish.Library.Fields
import SantaIWish.Library.AsyncCalls
import SantaIWish.Library.Patterns
import SantaIWish.Library.BatchUpdates
import SantaIWish.Library.NavigationStack
import SantaIWish.Library.SerialQueue
import SantaIWish.Library.Destutter
import SantaIWish.Foundation.Base64
import SantaIWish.Foundation.Base64Url
import SantaIWish.Foundation.Json
import SantaIWish.Foundation.Networking
import SantaIWish.Models.Representations
import SantaIWish.Models.ManagedObjects
import SantaIWish.Firebase.RealtimeDatabase
import SantaIWish.Firebase.Service
import SantaIWish.Firebase.TokenService
import SantaIWish.Firebase.Keychain
import SantaIWish.Firebase.CurrentUser
import SantaIWish.Firebase.IDToken
import SantaIWish.Controller.Requests
import SantaIWish.Controller.Adds
import SantaIWish.Controller.LocalStore
import SantaIWish.Controller.Screens
import SantaIWish.Controller.Records
import SantaIWish.Controller.Session
import SantaIWish.Controller.SignUp
import SantaIWish.Controller.TableUpdates
import SantaIWish.Controller.Navigation
import SantaIWish.RoundTrip
import SantaIWish.Completions
import SantaIWish.SignOut
import SantaIWish.StoredRecord
import SantaIWish.ChildLists
import SantaIWish.PathSeparation
import SantaIWish.Delivery
import SantaIWish.ReadBack
import SantaIWish.Families
import SantaIWish.FamilyLog
import SantaIWish.Network
import SantaIWish.Convergence
import SantaIWish.ShownScreens
import SantaIWish.SavedShown
import SantaIWish.OpenChild
import SantaIWish.AppRuns
import SantaIWish.AppSessions
import SantaIWish.Phones
import SantaIWish.PhonesConverge
import SantaIWish.TwoStores
import SantaIWish.StoresApart
import SantaIWish.AccountLists
import SantaIWish.WishlistReadBack
import SantaIWish.BulkUpload
import SantaIWish.SignUps
import SantaIWish.TokenRuns
import SantaIWish.AuthSteps
import SantaIWish.SavedUser
import SantaIWish.UserNotifications
import SantaIWish.AuthApp
import SantaIWish.AddChildScreens
import SantaIWish.Uploads
import SantaIWish.Passwords
import SantaIWish.ReportedChanges
import SantaIWish.TokenRefreshes
